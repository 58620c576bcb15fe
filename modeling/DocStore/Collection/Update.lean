import DocStore.Collection.Basic

/-! Inserting and removing records. The record and its index entries are changed in one transaction.
Entries are only ever updated from their current set, are created on first use and stay when they
become empty. -/
namespace DocStore.Collection

variable {σ τ α ι : Type} [DecidableEq ι] [Record α ι]

/-- The indexes and the values under which they list a record, in the order of the fields. -/
def project (collection : Collection σ τ α ι) (record : α) :
    Except QueryError (List (IndexName × IndexValue)) :=
  collection.fields.mapM fun field => do
    let value ← (field.project record).mapError .projection
    pure (field.name, value)

def addToIndex (collection : Collection σ τ α ι) (tx : τ) (id : ι) (entry : IndexName × IndexValue) :
    QueryAction σ Unit := do
  let store ← Action.ofExcept (collection.index entry.1)
  let _ ← (store.addOrUpdate tx entry.2 (.single id) fun _ current => current.insert id).mapError .store
  pure ()

def removeFromIndex (collection : Collection σ τ α ι) (tx : τ) (id : ι)
    (entry : IndexName × IndexValue) : QueryAction σ Unit := do
  let store ← Action.ofExcept (collection.index entry.1)
  let _ ← (store.addOrUpdate tx entry.2 .empty fun _ current => current.erase id).mapError .store
  pure ()

/-- Does something with each index entry of a record in turn, up to the first failure. -/
def forEntries (act : IndexName × IndexValue → QueryAction σ Unit) :
    List (IndexName × IndexValue) → QueryAction σ Unit
  | [] => pure ()
  | entry :: rest => do
    act entry
    forEntries act rest

/-- Adds a record and its index entries inside a transaction. Nothing is added, and the answer is no,
when its id is taken. -/
def insertIn (collection : Collection σ τ α ι) (tx : τ) (record : α) : QueryAction σ Bool := do
  let entries ← Action.ofExcept (collection.project record)
  if ← (collection.records.add tx (Record.id record) record).mapError .store then do
    forEntries (collection.addToIndex tx (Record.id record)) entries
    pure true
  else pure false

/-- Removes the record with an id from the primary store and from its index entries, inside a
transaction. The answer is no when there is none. -/
def removeIn (collection : Collection σ τ α ι) (tx : τ) (id : ι) : QueryAction σ Bool := do
  match ← (collection.records.remove tx id).mapError .store with
  | some record => do
    let entries ← Action.ofExcept (collection.project record)
    forEntries (collection.removeFromIndex tx id) entries
    pure true
  | none => pure false

/-- Runs a change in a transaction of its own. It is committed when the change was made, aborted when
there was nothing to change and released when it failed. -/
def change (collection : Collection σ τ α ι) (body : τ → QueryAction σ Bool) :
    QueryAction σ Bool := do
  let tx ← collection.begin
  match ← (body tx).attempt with
  | .ok true => do
    (collection.transactions.commit tx).mapError .store
    pure true
  | .ok false => do
    (collection.transactions.abort tx).mapError .store
    pure false
  | .error error => do
    Action.changing (collection.transactions.release tx)
    throw error

def insert (collection : Collection σ τ α ι) (record : α) : QueryAction σ Bool :=
  collection.change fun tx => collection.insertIn tx record

def remove (collection : Collection σ τ α ι) (id : ι) : QueryAction σ Bool :=
  collection.change fun tx => collection.removeIn tx id

end DocStore.Collection
