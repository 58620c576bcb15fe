import DocStore.AppError
import DocStore.Toml.Reader

/-! The settings of the command line program, kept in a file `settings.toml`. Settings of the database
have defaults; the collection must at least have a name. Values under names the program does not know
need only be readable. A section may also be an array of its settings in their order. -/
namespace DocStore

structure DatabaseSettings where
  url : String
  maxConnections : UInt32
  /-- How long a writer waits for the write lock. -/
  busyTimeout : UInt64
  /-- How long a query waits for a connection. -/
  acquireTimeout : UInt64
deriving DecidableEq, Repr

structure CollectionSettings where
  name : String
  indexes : List String
deriving DecidableEq, Repr

structure Settings where
  database : DatabaseSettings
  collection : CollectionSettings
deriving DecidableEq, Repr

def DatabaseSettings.standard : DatabaseSettings := ⟨"sqlite://kq.db", 4, 5000, 10000⟩

namespace Settings

def fileName : String := "settings.toml"

/-- Below a directory, unless the path is absolute. -/
def joinPath (dir path : String) : String :=
  if path.toList.head? = some '/' then path
  else if dir.isEmpty ∨ dir.toList.getLast? = some '/' then dir ++ path
  else dir ++ "/" ++ path

/-- The database address with its path made absolute; relative paths start at the directory of the
settings. -/
def resolveUrl (dir url : String) : String :=
  let scheme := "sqlite://"
  let path :=
    if scheme.toList.isPrefixOf url.toList then String.ofList (url.toList.drop scheme.length) else url
  scheme ++ joinPath dir path

/-- Whether all entries besides the named ones are readable. -/
def othersReadable (names : List String) (entries : Toml.Entries) : Bool :=
  entries.all fun (name, value) => names.contains name || value.isReadable

/-- The members of a section in a fixed order, each if it is given; none if it is no section. A date or
a time is a section without any. -/
def section? (names : List String) : Toml → Option (List (Option Toml))
  | .table _ entries =>
    if othersReadable names entries then some (names.map fun name => Toml.lookup? name entries)
    else none
  | .moment => some (names.map fun _ => none)
  | .array items => some ((List.range names.length).map fun position => items[position]?)
  | .tables items => some ((List.range names.length).map fun position => items[position]?)
  | _ => none

def string? : Toml → Option String
  | .string value => some value
  | _ => none

def natural? (bound : Nat) : Toml → Option Nat
  | .integer (some value) => if 0 ≤ value ∧ value < bound then some value.toNat else none
  | _ => none

def strings? : Toml → Option (List String)
  | .array items => items.mapM string?
  | .tables items => items.mapM string?
  | _ => none

/-- A setting with a default; one that is given must be of the right type. -/
def withDefault {α : Type} (read? : Toml → Option α) (standard : α) : Option Toml → Option α
  | none => some standard
  | some value => read? value

def database? (value : Toml) : Option DatabaseSettings := do
  let standard := DatabaseSettings.standard
  match ← section? ["url", "max_connections", "busy_timeout_ms", "acquire_timeout_ms"] value with
  | [url, connections, busy, acquire] => do
    some
      { url := ← withDefault string? standard.url url
        maxConnections :=
          .ofNat (← withDefault (natural? (2 ^ 32)) standard.maxConnections.toNat connections)
        busyTimeout := .ofNat (← withDefault (natural? (2 ^ 64)) standard.busyTimeout.toNat busy)
        acquireTimeout := .ofNat (← withDefault (natural? (2 ^ 64)) standard.acquireTimeout.toNat acquire) }
  | _ => none

def collection? (value : Toml) : Option CollectionSettings := do
  match ← section? ["name", "indexes"] value with
  | [some name, indexes] => do
    some { name := ← string? name, indexes := ← withDefault strings? [] indexes }
  | _ => none

def ofToml? : Toml → Option Settings
  | .table _ entries =>
    if othersReadable ["database", "collection"] entries then do
      some
        { database := ← withDefault database? .standard (Toml.lookup? "database" entries)
          collection := ← collection? (← Toml.lookup? "collection" entries) }
    else none
  | _ => none

def ofText (dir text : String) : Except AppError Settings :=
  match Toml.read? text >>= ofToml? with
  | some settings =>
    .ok { settings with
      database := { settings.database with url := resolveUrl dir settings.database.url } }
  | none => .error .malformedSettings

/-- The settings of a directory, from the bytes of its settings file if there is one. -/
def ofFile (dir : String) (bytes : Option ByteArray) : Except AppError Settings :=
  match bytes with
  | none => .error (.config ("settings file not found: " ++ joinPath dir fileName))
  | some bytes =>
    match String.fromUTF8? bytes with
    | some text => ofText dir text
    | none => .error .unreadableFile

end Settings

end DocStore
