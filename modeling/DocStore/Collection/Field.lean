import DocStore.IndexValue
import DocStore.Record

namespace DocStore

/-- A field of records `α`. The projection fails, with a reason, for records that refuse to be
written. -/
structure IndexedField (α : Type) where
  path : Path
  project : α → Except String IndexValue

namespace IndexedField

variable {α : Type}

def name (field : IndexedField α) : IndexName := field.path.indexName

def member {ι : Type} [Record α ι] (path : Path) : IndexedField α where
  path
  project record := (Record.toJson record).map fun json => IndexValue.project json path

/-- A value computed from the record, under the name of a path. -/
def computed (path : Path) (project : α → IndexValue) : IndexedField α where
  path
  project record := .ok (project record)

def shown (field : IndexedField α) : String :=
  "IndexedField \x7b name: IndexName(" ++ escaped field.name.text ++ "), .. \x7d"

end IndexedField

end DocStore
