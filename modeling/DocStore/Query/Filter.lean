import DocStore.Query.Expr

/-! Filters: JSON objects that state a predicate. The keys of a filter are fields, or `$and` and
`$or` over further filters; a field is compared with a value, or with the operators of an object
whose keys start with `$`. Several keys of one object must all hold. -/
namespace DocStore

inductive FilterError where
  | notObject
  | noKeys
  | unknownConnective (key : String)
  | notArray (connective : String)
  | noFilters (connective : String)
  | noOperators (field : String)
  | unknownOperator (key field : String)
  | choicesNotArray
  | noChoices
  | negationNotObject
deriving DecidableEq, Repr

def FilterError.message : FilterError → String
  | .notObject => "top-level filter must be an object"
  | .noKeys => "filter object must not be empty"
  | .unknownConnective key => "unknown top-level operator " ++ key
  | .notArray connective => connective ++ " value must be an array"
  | .noFilters connective => connective ++ " expects a non-empty array"
  | .noOperators field => "empty operator object for field " ++ field
  | .unknownOperator key field => "unknown operator " ++ key ++ " for field " ++ field
  | .choicesNotArray => "$in expects array"
  | .noChoices => "$in expects a non-empty array"
  | .negationNotObject => "$not expects an operator object"

namespace Filter

def isOperator (key : String) : Bool := key.toList.head? == some '$'

/-- Whether the object of a field holds operators; otherwise the field is compared with the whole
object. -/
def hasOperators (members : List (String × Json)) : Bool :=
  members.any fun member => isOperator member.1

/-- Joins the parts of one object or array; an empty one is an error. -/
def joined (combine : Expr → Expr → Expr) (empty : FilterError) (parts : List Expr) :
    Except FilterError Expr :=
  match Expr.join? combine parts with
  | some expr => .ok expr
  | none => .error empty

/-- Membership in a list of choices is equality with one of them. -/
def choices (path : Path) : Json → Except FilterError Expr
  | .array items => joined .either .noChoices (items.map (Expr.atom .equal path))
  | _ => .error .choicesNotArray

mutual

def parseField (field : String) : Json → Except FilterError Expr
  | .object members =>
    if members.isEmpty then .error (.noOperators field)
    else if hasOperators members then do
      let parts ← parseOperators field members
      joined .both (.noOperators field) parts
    else .ok (Expr.atom .equal (Path.parse field) (.object members))
  | value => .ok (Expr.atom .equal (Path.parse field) value)
termination_by structural value => value

def parseOperators (field : String) : List (String × Json) → Except FilterError (List Expr)
  | [] => .ok []
  | member :: rest => do
    let part ← parseOperator field member
    let parts ← parseOperators field rest
    pure (part :: parts)
termination_by structural members => members

def parseOperator (field : String) : String × Json → Except FilterError Expr
  | (key, value) =>
    if key = "$eq" then .ok (Expr.atom .equal (Path.parse field) value)
    else if key = "$ne" then .ok (Expr.atom .notEqual (Path.parse field) value)
    else if key = "$gt" then .ok (Expr.atom .greater (Path.parse field) value)
    else if key = "$gte" then .ok (Expr.atom .greaterEqual (Path.parse field) value)
    else if key = "$lt" then .ok (Expr.atom .less (Path.parse field) value)
    else if key = "$lte" then .ok (Expr.atom .lessEqual (Path.parse field) value)
    else if key = "$in" then choices (Path.parse field) value
    else if key = "$not" then
      match value with
      | .object members => do
        let inner ← parseField field (.object members)
        pure (.negation inner)
      | _ => .error .negationNotObject
    else .error (.unknownOperator key field)
termination_by structural member => member

end

mutual

def parse : Json → Except FilterError Expr
  | .object members => do
    let parts ← parseClauses members
    joined .both .noKeys parts
  | _ => .error .notObject
termination_by structural value => value

def parseAll : List Json → Except FilterError (List Expr)
  | [] => .ok []
  | item :: rest => do
    let part ← parse item
    let parts ← parseAll rest
    pure (part :: parts)
termination_by structural items => items

def parseClauses : List (String × Json) → Except FilterError (List Expr)
  | [] => .ok []
  | member :: rest => do
    let part ← parseClause member
    let parts ← parseClauses rest
    pure (part :: parts)
termination_by structural members => members

def parseClause : String × Json → Except FilterError Expr
  | (key, value) =>
    if key = "$and" then
      match value with
      | .array items => do
        let parts ← parseAll items
        joined .both (.noFilters key) parts
      | _ => .error (.notArray key)
    else if key = "$or" then
      match value with
      | .array items => do
        let parts ← parseAll items
        joined .either (.noFilters key) parts
      | _ => .error (.notArray key)
    else if isOperator key then .error (.unknownConnective key)
    else parseField key value
termination_by structural member => member

end

end Filter

end DocStore
