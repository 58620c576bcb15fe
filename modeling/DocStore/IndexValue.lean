import DocStore.Path
import DocStore.Json.Printer

/-! The keys of index entries. A field is looked up by the text of its value, so that values of
different types can share an index; a field that is null or absent has the null value. -/
namespace DocStore

inductive IndexValue where
  | null
  | text (value : String)
deriving DecidableEq, Repr, Inhabited

/-- The integer that a number without fractional part stands for, if it fits into 64 bits signed. -/
def Double.toInt64? (value : Double) : Option Int :=
  value.toInt?.filter fun whole => -2 ^ 63 ≤ whole ∧ whole < 2 ^ 63

namespace IndexValue

/-- Whole numbers have the text of their integer, so `10.0` and `10` share an entry. -/
def numberText : Number → String
  | .integer value => toString value
  | .double value =>
    match value.toInt64? with
    | some whole => toString whole
    | none => value.text

/-- Strings stand for themselves, numbers and truth values for their text, arrays and objects for
their compact text. -/
def ofJson : Json → IndexValue
  | .null => .null
  | .string contents => .text contents
  | .boolean value => .text (Json.boolean value).compact
  | .number value => .text (numberText value)
  | .array items => .text (Json.array items).compact
  | .object members => .text (Json.object members).compact

def project (record : Json) (path : Path) : IndexValue :=
  match path.resolve? record with
  | some value => ofJson value
  | none => .null

def isNull (value : IndexValue) : Bool := value == .null

/-- The text shown to a reader, who cannot tell the null value from the text `null`. -/
def display : IndexValue → String
  | .null => "null"
  | .text value => value

/-- The stored form, in which the null value and the text `null` differ. -/
def toJson : IndexValue → Json
  | .null => .null
  | .text value => .string value

def ofStored? : Json → Option IndexValue
  | .null => some .null
  | .string value => some (.text value)
  | _ => none

end IndexValue

end DocStore
