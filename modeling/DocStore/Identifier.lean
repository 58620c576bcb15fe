import DocStore.IdSet
import DocStore.Json.Printer

namespace DocStore

inductive ReadError where
  | wrongType (found : Json) (wanted : String)
  | outOfRange (found : Int) (wanted : String)
deriving DecidableEq, Repr

/-- A value as an error text names it. -/
def Json.described : Json → String
  | .null => "null"
  | .boolean value => "boolean `" ++ (Json.boolean value).compact ++ "`"
  | .number (.integer value) => "integer `" ++ toString value ++ "`"
  | .number (.double value) => "floating point `" ++ value.text ++ "`"
  | .string contents => "string " ++ escaped contents
  | .array _ => "sequence"
  | .object _ => "map"

def ReadError.message : ReadError → String
  | .wrongType found wanted => "invalid type: " ++ found.described ++ ", expected " ++ wanted
  | .outOfRange found wanted =>
    "invalid value: integer `" ++ toString found ++ "`, expected " ++ wanted

/-- A type whose values identify records. -/
class Identifier (ι : Type) where
  ofJson : Json → Except ReadError ι
  toJson : ι → Json
  /-- The identifier in diagnostics. -/
  shown : ι → String

def Json.integerWithin (least greatest : Int) (wanted : String) : Json → Except ReadError Int
  | .number (.integer value) =>
    if least ≤ value ∧ value ≤ greatest then .ok value else .error (.outOfRange value wanted)
  | other => .error (.wrongType other wanted)

instance : Identifier String where
  ofJson
    | .string contents => .ok contents
    | other => .error (.wrongType other "a string")
  toJson := .string
  shown := escaped

instance : Identifier UInt32 where
  ofJson value := do
    let whole ← value.integerWithin 0 (2 ^ 32 - 1) "u32"
    pure (UInt32.ofNat whole.toNat)
  toJson id := .number (.integer id.toNat)
  shown id := toString id.toNat

instance : Identifier Int64 where
  ofJson value := do
    let whole ← value.integerWithin (-2 ^ 63) (2 ^ 63 - 1) "i64"
    pure (Int64.ofInt whole)
  toJson id := .number (.integer id.toInt)
  shown id := toString id.toInt

/-- Reads a set from an array of identifiers, each listed any number of times. -/
def IdSet.ofJson {ι : Type} [DecidableEq ι] [Identifier ι] : Json → Except ReadError (IdSet ι)
  | .array items => do
    let ids ← items.mapM Identifier.ofJson
    pure (IdSet.ofList ids)
  | other => .error (.wrongType other "a sequence")

def IdSet.toJson {ι : Type} [Identifier ι] (set : IdSet ι) : Json :=
  .array (set.ids.map Identifier.toJson)

end DocStore
