import DocStore.Collection.Search
import DocStore.Collection.Update
import DocStore.Database.Store

namespace DocStore

inductive OpenError where
  | database (error : DatabaseError)
  | query (error : QueryError)
deriving DecidableEq, Repr

namespace Collection

variable {α ι : Type} [DecidableEq ι] [Identifier ι] [Record α ι]

/-- The table of an index of the collection called `name`. -/
def indexTable (name : String) (index : IndexName) : String := name ++ "_" ++ index.text

def recordStore (name : String) : LeafStore Database Nat ι α :=
  Database.store name Codec.identifier Codec.record

def indexStore (name : String) (index : IndexName) : LeafStore Database Nat IndexValue (IdSet ι) :=
  Database.store (indexTable name index) Codec.indexValue Codec.idSet

/-- Opens the collection called `name`, creating the tables it lacks. -/
def openStored (name : String) (fields : List (IndexedField α)) :
    Action OpenError Database (Collection Database Nat α ι) := do
  (Database.openTable name).mapError .database
  (build Database.transactions .together (recordStore name)
    (fun index => do
      (Database.openTable (indexTable name index)).mapError .ofDatabase
      pure (indexStore name index))
    fields).mapError .query

end Collection

end DocStore
