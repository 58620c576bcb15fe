import DocStore.Json.Basic
import DocStore.Text.Pieces

/-! Member paths and the names of indexes. A path selects one field of a record by the member names
from the root down; an index is named after the path of the field it covers, its segments joined by
dots. -/
namespace DocStore

/-- Member names from the root to the selected field. -/
structure Path where
  segments : List String
deriving DecidableEq, Repr, Inhabited

structure IndexName where
  text : String
deriving DecidableEq, Repr, Inhabited

namespace Path

/-- Reads a dotted path; empty pieces do not count. -/
def parse (dotted : String) : Path :=
  ⟨((piecesBetween '.' dotted.toList).filter fun piece => !piece.isEmpty).map String.ofList⟩

def child (path : Path) (member : String) : Path := ⟨path.segments ++ [member]⟩

def isEmpty (path : Path) : Bool := path.segments.isEmpty

def isMember (path : Path) (name : String) : Bool := path.segments == [name]

def dotted (path : Path) : String := ".".intercalate path.segments

/-- The name of the index over the field at this path, for its declaration and for its queries. -/
def indexName (path : Path) : IndexName := ⟨path.dotted⟩

def resolve? (path : Path) (record : Json) : Option Json := path.segments.foldlM Json.get? record

end Path

def IndexName.parse (dotted : String) : IndexName := (Path.parse dotted).indexName

end DocStore
