import DocStore.Collection.Search
import DocStore.Collection.Update
import DocStore.Store.Memory
import DocStore.Store.Trace

namespace DocStore

/-- The records by id, and the entries of each index. -/
structure MemoryWorld (α ι : Type) where
  records : Table ι α
  entries : Table IndexName (Table IndexValue (IdSet ι))

namespace MemoryWorld

variable {α ι : Type}

def empty : MemoryWorld α ι := ⟨.empty, .empty⟩

def recordPart : Part (MemoryWorld α ι) (Table ι α) where
  get world := world.records
  set records world := { world with records }

/-- The entries of one index; an index nothing was written to has none. -/
def indexPart (name : IndexName) : Part (MemoryWorld α ι) (Table IndexValue (IdSet ι)) where
  get world := (world.entries.get? name).getD .empty
  set entries world := { world with entries := world.entries.put name entries }

end MemoryWorld

namespace Collection

variable {α ι : Type} [DecidableEq ι]

/-- A collection in memory whose index stores may fail to open: `refused` names the ones that do. -/
def inMemoryExcept (refused : IndexName → Option StoreError) (fields : List (IndexedField α)) :
    QueryAction (MemoryWorld α ι) (Collection (MemoryWorld α ι) Unit α ι) :=
  build Memory.transactions .inTurn (Memory.store MemoryWorld.recordPart)
    (fun name =>
      match refused name with
      | some error => throw error
      | none => pure (Memory.store (MemoryWorld.indexPart name)))
    fields

def inMemory (fields : List (IndexedField α)) :
    QueryAction (MemoryWorld α ι) (Collection (MemoryWorld α ι) Unit α ι) :=
  inMemoryExcept (fun _ => none) fields

variable [Identifier ι]

/-- A traced store in memory that fails on schedule. It has no lookups of its own, so they show as
gets. -/
def observedStore {σ κ ν : Type} [DecidableEq κ] (name : String) (keyJson : κ → Json)
    (part : Part σ (Table κ ν)) : LeafStore (Traced (Faulty σ)) Unit κ ν :=
  (Traced.store name keyJson (Faulty.store name (Memory.store part))).withPlainLookups

/-- The transactions of observed stores. All of them have the number 1. -/
def observedTransactions {σ : Type} : Transactions (Traced (Faulty σ)) Unit :=
  { Traced.transactions (Faulty.transactions Memory.transactions) with id := fun _ => 1 }

/-- A collection in memory whose use is traced and fails on schedule. Its primary store is called
`records`, its index stores have the names of their indexes. -/
def observed (refused : IndexName → Option StoreError) (fields : List (IndexedField α)) :
    QueryAction (Traced (Faulty (MemoryWorld α ι)))
      (Collection (Traced (Faulty (MemoryWorld α ι))) Unit α ι) :=
  build observedTransactions .inTurn
    (observedStore "records" Identifier.toJson MemoryWorld.recordPart)
    (fun name =>
      Traced.act (.opened name.text)
        (match refused name with
        | some error => throw error
        | none => pure (observedStore name.text IndexValue.toJson (MemoryWorld.indexPart name))))
    fields

end Collection

end DocStore
