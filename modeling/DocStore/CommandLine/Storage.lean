import DocStore.CommandLine.Host
import DocStore.Database.File
import DocStore.Settings.Location
import DocStore.Text.Pieces

namespace DocStore.CommandLine

def absolutePath (names : List String) : String := "/" ++ "/".intercalate names

/-- The length in bytes that the engine has room for on its way. -/
def pathRoom : Nat := 511

/-- The bytes that the journal beside a database adds to its name. -/
def journalRoom : Nat := 8

def longestName : Nat := 255 - journalRoom

/-- The longest path of a database file, in bytes. -/
def longestPath : Nat := 512 - journalRoom

def namesOf (path : String) : List String := (piecesBetween '/' path.toList).map String.ofList

section

variable {μ : Type → Type} [Monad μ]

/-- Follows names from a place on. The way ends where it gets too long or an entry cannot be looked at. -/
def follow (host : Host μ) (place : List String) : List String → μ (Option (List String))
  | [] => pure (some place)
  | name :: rest =>
    if name = "" ∨ name = "." then follow host place rest
    else if name = ".." then follow host place.dropLast rest
    else do
      let next := place ++ [name]
      if pathRoom < (absolutePath next).utf8ByteSize then pure none
      else
        match ← host.entry (absolutePath next) with
        | .unreachable => pure none
        | _ => follow host next rest

/-- The place of a database file, if it leaves room for a journal. -/
def filePlace (host : Host μ) (path : String) : μ (Option (List String)) := do
  let working ← if path.toList.head? = some '/' then pure "" else host.workingDirectory
  let found ← follow host [] (namesOf working ++ namesOf path)
  pure (found.filter fun place =>
    place.getLast?.any (fun name => name.utf8ByteSize ≤ longestName) &&
      (absolutePath place).utf8ByteSize ≤ longestPath)

structure Opened where
  database : Database
  /-- Where it is kept, if it lasts. -/
  path : Option String
  readOnly : Bool

/-- The database in the file at a place. A file that does not exist yet is an empty database, if there is
a directory for it. -/
def openFile (host : Host μ) (place : List String) (readOnly : Bool) : μ (Except Refusal Opened) := do
  let path := absolutePath place
  let parent := absolutePath place.dropLast
  match ← host.entry path, ← host.isDirectory parent with
  | .file, _ =>
    match ← host.readFile path with
    | some bytes =>
      match Database.ofBytes? bytes with
      | some database => pure (.ok ⟨database, some path, readOnly⟩)
      | none => pure (.error .notDatabase)
    | none => pure (.error .cannotOpen)
  | .absent, true =>
    if readOnly then pure (.error .cannotOpen) else pure (.ok ⟨.empty, some path, false⟩)
  | _, _ => pure (.error .cannotOpen)

def openDatabase (host : Host μ) : Location → μ (Except Refusal Opened)
  | .memory => pure (.ok ⟨.empty, none, false⟩)
  | .file path readOnly => do
    match ← filePlace host path with
    | some place => openFile host place readOnly
    | none => pure (.error .cannotOpen)

/-- Keeps for the next run what a database has become. One that is only read must not have changed. -/
def saveDatabase (host : Host μ) (opened : Opened) (database : Database) : μ (Except Refusal Unit) :=
  if opened.readOnly then
    pure (if database.committed.version = opened.database.committed.version then .ok ()
      else .error .readOnly)
  else
    match opened.path with
    | some path => do
      host.writeFile path database.toBytes
      pure (.ok ())
    | none => pure (.ok ())

end

end DocStore.CommandLine
