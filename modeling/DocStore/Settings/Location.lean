import DocStore.Settings.Basic
import DocStore.Text.Percent
import DocStore.Text.Pieces

namespace DocStore

inductive Location where
  /-- Nothing that lasts; the database is empty at each start. -/
  | memory
  /-- The file at a path. One that is only read must exist already. -/
  | file (path : String) (readOnly : Bool)
deriving DecidableEq, Repr

namespace Location

structure Options where
  readOnly : Bool
  inMemory : Bool
  /-- The file is promised not to change, so it is only read. -/
  immutable : Bool
  layer : Option String
deriving DecidableEq, Repr

def stripAll (mark : List Char) : Nat → List Char → List Char
  | 0, text => text
  | fuel + 1, text => if mark.isPrefixOf text then stripAll mark fuel (text.drop mark.length) else text

def truth? (text : String) : Option Bool :=
  if text = "true" ∨ text = "1" then some true
  else if text = "false" ∨ text = "0" then some false
  else none

def beforeNul (text : String) : String := String.ofList (text.toList.takeWhile (· ≠ '\x00'))

/-- Takes one option into account. Reading only and keeping in memory cannot be taken back; of the other
options the last one counts. -/
def Options.set? (options : Options) (name value : String) : Option Options :=
  if name = "mode" then
    if value = "memory" then some { options with inMemory := true }
    else if value = "ro" then some { options with readOnly := true }
    else if value = "rw" ∨ value = "rwc" then some options
    else none
  else if name = "cache" then
    if value = "private" ∨ value = "shared" then some options else none
  else if name = "immutable" then do some { options with immutable := ← truth? value }
  else if name = "vfs" then some { options with layer := some (beforeNul value) }
  else none

/-- Reads one option: a name, an equals sign and a value, both written as in a form. -/
def option? (options : Options) (text : List Char) : Option Options := do
  let name ← formDecoded? (text.takeWhile (· ≠ '='))
  let value ← formDecoded? ((text.dropWhile (· ≠ '=')).drop 1)
  options.set? name value

def splitOptions (text : List Char) : List (List Char) :=
  (piecesBetween '&' text).filter fun piece => !piece.isEmpty

def memoryLayer : String := "memdb"

def layers : List String := ["unix", "unix-none", "unix-dotfile", "unix-excl", memoryLayer]

/-- The location for a path under some options. What lasts only as long as the program cannot be opened
for reading only. Options that concern the file itself end its path at a NUL, which no path may hold
otherwise. -/
def ofPath? (path : String) (options : Options) : Option Location :=
  let path := if options.immutable || options.layer.isSome then beforeNul path else path
  let fleeting := options.inMemory || path = ":memory:" || path.isEmpty
  if '\x00' ∈ path.toList || options.layer.any (!layers.contains ·) then none
  else if fleeting then if options.readOnly then none else some .memory
  else if options.layer = some memoryLayer then
    if options.readOnly || options.immutable then none else some .memory
  else some (.file path (options.readOnly || options.immutable))

def ofUrl (url : String) : Except DatabaseError Location :=
  let text := url.toList
  let text := stripAll "sqlite:".toList text.length text
  let text := stripAll "//".toList text.length text
  let location? := do
    let path ← percentDecoded? (text.takeWhile (· ≠ '?'))
    let options := splitOptions ((text.dropWhile (· ≠ '?')).drop 1)
    ofPath? path (← options.foldlM option? ⟨false, false, false, none⟩)
  match location? with
  | some location => .ok location
  | none => .error (.connect .cannotOpen)

end Location

end DocStore
