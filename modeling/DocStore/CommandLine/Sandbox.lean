import DocStore.CommandLine.Program

namespace DocStore.CommandLine

/-- A small machine. Places are lists of names from the root down. -/
structure Sandbox where
  environment : Option String
  /-- The directories besides the root. -/
  directories : List (List String)
  working : List String
  files : Table (List String) ByteArray
  ids : Nat

namespace Sandbox

def entryAt (sandbox : Sandbox) (place : List String) : Entry :=
  if place.isEmpty || sandbox.directories.contains place then .directory
  else if (sandbox.files.get? place).isSome then .file
  else .absent

/-- One name further on a path, or what stops there. Only from a directory there is a way on. -/
def step (sandbox : Sandbox) (place : List String) (name : String) : Except Entry (List String) :=
  match sandbox.entryAt place with
  | .directory =>
    if name = "" ∨ name = "." then .ok place
    else if name = ".." then .ok place.dropLast
    else if 255 < name.utf8ByteSize then .error .unreachable
    else .ok (place ++ [name])
  | .absent => .error .absent
  | _ => .error .unreachable

/-- Where a path leads to, or what stops it. -/
def place (sandbox : Sandbox) (path : String) : Except Entry (List String) :=
  let start := if path.toList.head? = some '/' then [] else sandbox.working
  if path.isEmpty then .error .absent
  else if '\x00' ∈ path.toList ∨ 4096 ≤ path.utf8ByteSize then .error .unreachable
  else (namesOf path).foldlM sandbox.step start

def entry (sandbox : Sandbox) (path : String) : Entry :=
  match sandbox.place path with
  | .ok place => sandbox.entryAt place
  | .error entry => entry

def isDirectory (sandbox : Sandbox) (path : String) : Bool := sandbox.entry path == .directory

def readFile (sandbox : Sandbox) (path : String) : Option ByteArray :=
  (sandbox.place path).toOption >>= sandbox.files.get?

def writeFile (sandbox : Sandbox) (path : String) (bytes : ByteArray) : Sandbox :=
  match sandbox.place path with
  | .ok place => { sandbox with files := sandbox.files.put place bytes }
  | .error _ => sandbox

/-- Ids in the form of random ones, numbered from 1. -/
def numberedId (number : Nat) : String :=
  let digits := toString number
  "00000000-0000-4000-8000-" ++ String.ofList (List.replicate (12 - digits.length) '0') ++ digits

def host : Host (StateM Sandbox) where
  environment := do pure (← get).environment
  workingDirectory := do pure (absolutePath (← get).working)
  entry path := do pure ((← get).entry path)
  readFile path := do pure ((← get).readFile path)
  writeFile path bytes := modify fun sandbox => sandbox.writeFile path bytes
  freshId := do
    modify fun sandbox => { sandbox with ids := sandbox.ids + 1 }
    pure (numberedId (← get).ids)

end Sandbox

end DocStore.CommandLine
