import DocStore.Identifier
import DocStore.IndexValue

namespace DocStore

inductive Operation (ι : Type) where
  | byId (id : ι)
  | byField (name : IndexName) (value : IndexValue)
  | both (left right : Operation ι)
  | either (left right : Operation ι)
deriving DecidableEq, Repr

namespace Operation

variable {ι : Type}

def display [Identifier ι] : Operation ι → String
  | .byId id => "QueryById(" ++ Identifier.shown id ++ ")"
  | .byField name value => "QueryByField(" ++ name.text ++ ", " ++ value.display ++ ")"
  | .both left right => "And(" ++ left.display ++ ", " ++ right.display ++ ")"
  | .either left right => "Or(" ++ left.display ++ ", " ++ right.display ++ ")"

/-- The indexes a plan looks into, from left to right. -/
def indexNames : Operation ι → List IndexName
  | .byId _ => []
  | .byField name _ => [name]
  | .both left right => left.indexNames ++ right.indexNames
  | .either left right => left.indexNames ++ right.indexNames

end Operation

end DocStore
