namespace DocStore

/-- How a table came about. -/
inductive TableOrigin where
  /-- As a parent of a table with a header. -/
  | implied
  /-- As a parent in a dotted key. -/
  | dotted
  | header
  /-- Between braces, where it is complete. -/
  | inline
deriving DecidableEq, Repr

/-- Whether a dotted key may go on from a table of this origin. To put its value right into the table,
the table must itself come from dotted keys. -/
def TableOrigin.admits (direct : Bool) : TableOrigin → Bool
  | .dotted => true
  | .implied => !direct
  | .header | .inline => false

inductive Toml where
  | string (value : String)
  /-- An integer, if its text stands for one of at most 128 bits. -/
  | integer (value : Option Int)
  | boolean (value : Bool)
  /-- A floating point number, and whether its text stays below infinity or names it. -/
  | float (inRange : Bool)
  | moment
  | array (items : List Toml)
  | table (origin : TableOrigin) (entries : List (String × Toml))
  /-- The tables under headers in double brackets. -/
  | tables (elements : List Toml)
deriving Inhabited

namespace Toml

abbrev Entries := List (String × Toml)

def lookup? (key : String) (entries : Entries) : Option Toml :=
  (entries.find? fun entry => entry.1 == key).map Prod.snd

def put (key : String) (value : Toml) : Entries → Entries
  | [] => [(key, value)]
  | entry :: rest => if entry.1 = key then (key, value) :: rest else entry :: put key value rest

/-- Changes the table under the path of a header, making the tables it lacks. Of the tables under a
double-bracket header the last one is meant. -/
def alter (change : Entries → Option Entries) : List String → Entries → Option Entries
  | [], entries => change entries
  | key :: path, entries =>
    match lookup? key entries with
    | none => do
      let inner ← alter change path []
      some (put key (.table .implied inner) entries)
    | some (.table .inline _) => none
    | some (.table origin inner) => do
      let inner ← alter change path inner
      some (put key (.table origin inner) entries)
    | some (.tables elements) =>
      match elements.getLast? with
      | some (.table origin inner) => do
        let inner ← alter change path inner
        some (put key (.tables (elements.dropLast ++ [.table origin inner])) entries)
      | _ => none
    | some _ => none

/-- Adds a value under a dotted key. Of the tables under a double-bracket header the last one is
passed, but it takes no value directly. -/
def assign (value : Toml) : List String → Entries → Option Entries
  | [], _ => none
  | [key], entries =>
    match lookup? key entries with
    | none => some (put key value entries)
    | some _ => none
  | key :: path, entries =>
    let direct := path.length == 1
    match lookup? key entries with
    | none => do
      let inner ← assign value path []
      some (put key (.table .dotted inner) entries)
    | some (.table origin inner) =>
      if origin.admits direct then do
        let inner ← assign value path inner
        some (put key (.table origin inner) entries)
      else none
    | some (.tables elements) =>
      match direct, elements.getLast? with
      | false, some (.table origin inner) => do
        let inner ← assign value path inner
        some (put key (.tables (elements.dropLast ++ [.table origin inner])) entries)
      | _, _ => none
    | some _ => none

/-- Opens the table of a header; only an implied table may exist already. -/
def openTable (key : String) (entries : Entries) : Option Entries :=
  match lookup? key entries with
  | none => some (put key (.table .header []) entries)
  | some (.table .implied inner) => some (put key (.table .header inner) entries)
  | some _ => none

def openElement (key : String) (entries : Entries) : Option Entries :=
  match lookup? key entries with
  | none => some (put key (.tables [.table .header []]) entries)
  | some (.tables elements) => some (put key (.tables (elements ++ [.table .header []])) entries)
  | some _ => none

mutual

def isReadable : Toml → Bool
  | .integer value => value.isSome
  | .float inRange => inRange
  | .string _ | .boolean _ | .moment => true
  | .array items | .tables items => areReadable items
  | .table _ entries => areReadableEntries entries
termination_by structural value => value

def areReadable : List Toml → Bool
  | [] => true
  | item :: rest => item.isReadable && areReadable rest
termination_by structural items => items

def areReadableEntries : List (String × Toml) → Bool
  | [] => true
  | entry :: rest => isReadableEntry entry && areReadableEntries rest
termination_by structural entries => entries

def isReadableEntry : String × Toml → Bool
  | (_, value) => value.isReadable
termination_by structural entry => entry

end

def splitLast? (path : List String) : Option (List String × String) := do
  some (path.dropLast, ← path.getLast?)

inductive Statement where
  | header (path : List String)
  | element (path : List String)
  | entry (path : List String) (value : Toml)

/-- The root entries after a statement, and the header it stands under. -/
def build (state : List String × Entries) : Statement → Option (List String × Entries)
  | .header path => do
    let (parents, key) ← splitLast? path
    some (path, ← alter (openTable key) parents state.2)
  | .element path => do
    let (parents, key) ← splitLast? path
    some (path, ← alter (openElement key) parents state.2)
  | .entry path value => do some (state.1, ← alter (assign value path) state.1 state.2)

def ofStatements? (statements : List Statement) : Option Toml := do
  let (_, entries) ← statements.foldlM build ([], [])
  some (.table .header entries)

end Toml

end DocStore
