import DocStore.IndexValue

namespace DocStore

inductive Comparison where
  | equal
  | notEqual
  | less
  | lessEqual
  | greater
  | greaterEqual
deriving DecidableEq, Repr

inductive Expr where
  | member (path : Path)
  | literal (value : Json)
  /-- A value of the caller, read anew each time the expression is compiled. -/
  | captured (slot : Nat)
  /-- A type conversion, which changes nothing. -/
  | convert (inner : Expr)
  | compare (comparison : Comparison) (left right : Expr)
  | both (left right : Expr)
  | either (left right : Expr)
  | negation (inner : Expr)
deriving DecidableEq, Repr

def Comparison.symbol : Comparison → String
  | .equal => "=="
  | .notEqual => "!="
  | .less => "<"
  | .lessEqual => "<="
  | .greater => ">"
  | .greaterEqual => ">="

namespace Expr

/-- The expression as an error text shows it. Captured values are not read for it. -/
def display : Expr → String
  | .member path => path.dotted
  | .literal value => value.compact
  | .captured _ => "<captured>"
  | .convert inner => "convert(" ++ inner.display ++ ")"
  | .compare comparison left right => left.display ++ " " ++ comparison.symbol ++ " " ++ right.display
  | .both left right => "(" ++ left.display ++ ") && (" ++ right.display ++ ")"
  | .either left right => "(" ++ left.display ++ ") || (" ++ right.display ++ ")"
  | .negation inner => "!(" ++ inner.display ++ ")"

/-- Joins several expressions from the left; there is no expression for none. -/
def join? (combine : Expr → Expr → Expr) : List Expr → Option Expr
  | [] => none
  | first :: rest => some (rest.foldl combine first)

def atom (comparison : Comparison) (path : Path) (value : Json) : Expr :=
  .compare comparison (.member path) (.literal value)

end Expr

end DocStore
