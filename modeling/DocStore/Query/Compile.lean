import DocStore.Query.Expr
import DocStore.Query.Operation
import DocStore.Query.Scope

/-! Compiling predicates to plans. Equalities of a field with a constant, joined by AND and OR, can be
answered from indexes; an equality of the identifier member is a lookup by identifier. Everything
else is refused before any store is touched. -/
namespace DocStore

inductive Unsupported where
  | notAnswerable (expr : Expr)
  | nestedConversion
  | notMember (found : Expr)
  | notConstant (found : Expr)
  | unreadable (reason : String)
  | badIdentifier (value : Json) (idMember : String) (error : ReadError)
deriving DecidableEq, Repr

def Unsupported.message : Unsupported → String
  | .notAnswerable expr => "`" ++ expr.display ++ "` is not an equality, AND or OR expression"
  | .nestedConversion => "nested conversions are not supported"
  | .notMember found => "left side of `==` must be a record member, found `" ++ found.display ++ "`"
  | .notConstant found => "right side of `==` must be a constant, found `" ++ found.display ++ "`"
  | .unreadable reason => "captured value could not be read: " ++ reason
  | .badIdentifier value idMember error =>
    "`" ++ value.compact ++ "` is not a valid `" ++ idMember ++ "` identifier: " ++ error.message

/-- A compilation step: its outcome after the captured values read so far, the latest one first, and
the reads made when it is over. -/
abbrev Compilation (α : Type) := ExceptT Unsupported (StateM (List Nat)) α

namespace Expr

/-- The expression under at most one conversion. -/
def unconverted : Expr → Except Unsupported Expr
  | .convert (.convert _) => .error .nestedConversion
  | .convert inner => .ok inner
  | expr => .ok expr

def memberPath (expr : Expr) : Except Unsupported Path := do
  match ← expr.unconverted with
  | .member path => if path.isEmpty then .error (.notMember (.member path)) else .ok path
  | found => .error (.notMember found)

/-- Reads a captured value, which counts as a read whether it succeeds or not. -/
def readCaptured (scope : Scope) (slot : Nat) : Compilation Json := fun reads =>
  match scope.read reads slot with
  | .ok value => (.ok value, slot :: reads)
  | .error reason => (.error (.unreadable reason), slot :: reads)

def constant (scope : Scope) (expr : Expr) : Compilation Json := do
  match ← (expr.unconverted : Except Unsupported Expr) with
  | .literal value => pure value
  | .captured slot => readCaptured scope slot
  | found => throw (.notConstant found)

end Expr

/-- The identifier a value stands for. A number or truth value also stands for the identifier that
its index value text is. -/
def identifierOf {ι : Type} [Identifier ι] (value : Json) : Except ReadError ι :=
  match (Identifier.ofJson value : Except ReadError ι) with
  | .ok id => .ok id
  | .error error =>
    match value with
    | .number _ | .boolean _ =>
      match (Identifier.ofJson (.string (IndexValue.ofJson value).display) : Except ReadError ι) with
      | .ok id => .ok id
      | .error _ => .error error
    | _ => .error error

namespace Expr

variable {ι : Type} [Identifier ι]

def lookup (idMember : String) (path : Path) (value : Json) : Except Unsupported (Operation ι) :=
  if path.isMember idMember then
    match (identifierOf value : Except ReadError ι) with
    | .ok id => .ok (.byId id)
    | .error error => .error (.badIdentifier value idMember error)
  else .ok (.byField path.indexName (IndexValue.ofJson value))

/-- The plan that answers an expression over records identified by their member `idMember`. -/
def compile (idMember : String) (scope : Scope) : Expr → Compilation (Operation ι)
  | .compare .equal left right => do
    let path ← (left.memberPath : Except Unsupported Path)
    let value ← right.constant scope
    (lookup idMember path value : Except Unsupported (Operation ι))
  | .both left right => do
    let left ← compile idMember scope left
    let right ← compile idMember scope right
    pure (.both left right)
  | .either left right => do
    let left ← compile idMember scope left
    let right ← compile idMember scope right
    pure (.either left right)
  | expr => throw (.notAnswerable expr)

end Expr

end DocStore
