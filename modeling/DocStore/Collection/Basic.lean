import DocStore.Collection.Error
import DocStore.Collection.Field
import DocStore.Store.Leaf

/-! Collections: one primary store of records and one leaf store for each index, under common
transactions. An index store maps each value of its field to the set of ids of the records that have
it. -/
namespace DocStore

abbrev QueryAction (σ α : Type) := Action QueryError σ α

/-- The stores of the indexes by name, in the order they were opened. -/
structure Indexes (σ τ ι : Type) where
  stores : List (IndexName × LeafStore σ τ IndexValue (IdSet ι))

namespace Indexes

variable {σ τ ι α : Type}

def empty : Indexes σ τ ι := ⟨[]⟩

def get? (indexes : Indexes σ τ ι) (name : IndexName) :
    Option (LeafStore σ τ IndexValue (IdSet ι)) :=
  (indexes.stores.find? fun entry => entry.1 == name).map Prod.snd

def names (indexes : Indexes σ τ ι) : List IndexName := indexes.stores.map Prod.fst

def size (indexes : Indexes σ τ ι) : Nat := indexes.stores.length

def isEmpty (indexes : Indexes σ τ ι) : Bool := indexes.stores.isEmpty

def add (indexes : Indexes σ τ ι) (name : IndexName)
    (store : LeafStore σ τ IndexValue (IdSet ι)) : Indexes σ τ ι :=
  ⟨indexes.stores ++ [(name, store)]⟩

/-- Opens the stores of further fields in their order. A name that is taken ends the work before its
store is opened. -/
def extend (factory : IndexName → StoreAction σ (LeafStore σ τ IndexValue (IdSet ι)))
    (opened : Indexes σ τ ι) : List (IndexedField α) → QueryAction σ (Indexes σ τ ι)
  | [] => pure opened
  | field :: rest =>
    if field.name ∈ opened.names then throw (.duplicateIndex field.name)
    else do
      let store ← (factory field.name).mapError .store
      extend factory (opened.add field.name store) rest

def build (factory : IndexName → StoreAction σ (LeafStore σ τ IndexValue (IdSet ι)))
    (fields : List (IndexedField α)) : QueryAction σ (Indexes σ τ ι) := extend factory empty fields

end Indexes

/-- How the lookups of one query follow each other. -/
inductive Lookups where
  /-- Each lookup is over before the next one starts. -/
  | inTurn
  /-- All lookups start before any of them is over. -/
  | together
deriving DecidableEq, Repr

/-- Records of type `α` with ids `ι`, kept in a world `σ` under transactions `τ`. -/
structure Collection (σ τ α ι : Type) where
  transactions : Transactions σ τ
  records : LeafStore σ τ ι α
  indexes : Indexes σ τ ι
  fields : List (IndexedField α)
  lookups : Lookups

namespace Collection

variable {σ τ α ι : Type}

/-- The collection of a primary store with an index for each field. -/
def build (transactions : Transactions σ τ) (lookups : Lookups) (records : LeafStore σ τ ι α)
    (factory : IndexName → StoreAction σ (LeafStore σ τ IndexValue (IdSet ι)))
    (fields : List (IndexedField α)) : QueryAction σ (Collection σ τ α ι) := do
  let indexes ← Indexes.build factory fields
  pure { transactions, records, indexes, fields, lookups }

def begin (collection : Collection σ τ α ι) : QueryAction σ τ :=
  collection.records.begin.mapError .store

def indexNames (collection : Collection σ τ α ι) : List IndexName :=
  collection.fields.map IndexedField.name

def index (collection : Collection σ τ α ι) (name : IndexName) :
    Except QueryError (LeafStore σ τ IndexValue (IdSet ι)) :=
  match collection.indexes.get? name with
  | some store => .ok store
  | none => .error (.unknownIndex name)

end Collection

end DocStore
