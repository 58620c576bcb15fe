import DocStore.Json.Printer
import DocStore.Store.Leaf

/-! Stores that keep a trace of the calls made on them, and stores that fail on schedule. Both wrap
any other store, so what the engine asks of its stores can be observed, and its conduct tested under
every pattern of failures. -/
namespace DocStore

inductive Call where
  | get
  | find
  | add
  | remove
  | getOrAdd
  | addOrUpdate
deriving DecidableEq, Repr

def Call.label : Call → String
  | .get => "get"
  | .find => "try_get"
  | .add => "try_add"
  | .remove => "try_remove"
  | .getOrAdd => "get_or_add"
  | .addOrUpdate => "add_or_update"

/-- One step in the use of a family of stores. Keys stand in their JSON form. -/
inductive Event where
  | opened (store : String)
  | begun
  | begunRead
  | committed
  | aborted
  | released
  | called (store : String) (call : Call) (key : Json)
deriving DecidableEq, Repr

/-- The kind of step, by which failures are scheduled. -/
def Event.label : Event → String
  | .opened store => "open " ++ store
  | .begun => "tx.begin"
  | .begunRead => "tx.begin_read"
  | .committed => "tx.commit"
  | .aborted => "tx.abort"
  | .released => "tx.dropped"
  | .called store call _ => store ++ "." ++ call.label

def Event.text : Event → String
  | .called store call key => store ++ "." ++ call.label ++ " " ++ key.compact
  | event => event.label

/-- A world with the trace of what was done in it, the latest step last. -/
structure Traced (σ : Type) where
  trace : List Event
  inner : σ

namespace Traced

variable {σ τ κ ν α : Type}

/-- Notes a step, then does it. -/
def act (event : Event) (action : StoreAction σ α) : StoreAction (Traced σ) α := fun world =>
  let (outcome, inner) := action world.inner
  (outcome, ⟨world.trace ++ [event], inner⟩)

def cleared (world : Traced σ) : Traced σ := { world with trace := [] }

def silently (action : StoreAction σ α) : StoreAction (Traced σ) α := fun world =>
  let (outcome, inner) := action world.inner
  (outcome, ⟨world.trace, inner⟩)

def transactions (inner : Transactions σ τ) : Transactions (Traced σ) τ where
  id := inner.id
  commit tx := act .committed (inner.commit tx)
  abort tx := act .aborted (inner.abort tx)
  release tx world := ⟨world.trace ++ [.released], inner.release tx world.inner⟩

/-- The store called `name`, with every call on single keys noted. -/
def store (name : String) (keyJson : κ → Json) (inner : LeafStore σ τ κ ν) :
    LeafStore (Traced σ) τ κ ν where
  begin := act .begun inner.begin
  beginRead := act .begunRead inner.beginRead
  get tx key := act (.called name .get (keyJson key)) (inner.get tx key)
  find tx key := act (.called name .find (keyJson key)) (inner.find tx key)
  add tx key value := act (.called name .add (keyJson key)) (inner.add tx key value)
  remove tx key := act (.called name .remove (keyJson key)) (inner.remove tx key)
  getOrAdd tx key build := act (.called name .getOrAdd (keyJson key)) (inner.getOrAdd tx key build)
  addOrUpdate tx key value update :=
    act (.called name .addOrUpdate (keyJson key)) (inner.addOrUpdate tx key value update)
  keys := silently inner.keys
  values := silently inner.values

end Traced

/-- The `nth` step of a kind fails. -/
structure Fault where
  label : String
  nth : Nat
  error : StoreError
deriving DecidableEq, Repr

/-- A world in which some steps are bound to fail, with the kinds of the steps made so far. -/
structure Faulty (σ : Type) where
  faults : List Fault
  made : List String
  inner : σ

namespace Faulty

variable {σ τ κ ν α : Type}

/-- Does a step unless it is bound to fail. -/
def act (label : String) (action : StoreAction σ α) : StoreAction (Faulty σ) α := fun world =>
  let made := label :: world.made
  let due := world.faults.find? fun fault => fault.label == label && fault.nth == made.count label
  match due with
  | some fault => (.error fault.error, { world with made })
  | none =>
    let (outcome, inner) := action world.inner
    (outcome, { world with made, inner })

/-- Does a step that never fails on schedule. -/
def safely (action : StoreAction σ α) : StoreAction (Faulty σ) α := fun world =>
  let (outcome, inner) := action world.inner
  (outcome, { world with inner })

def transactions (inner : Transactions σ τ) : Transactions (Faulty σ) τ where
  id := inner.id
  commit tx := act Event.committed.label (inner.commit tx)
  abort tx := act Event.aborted.label (inner.abort tx)
  release tx world := { world with inner := inner.release tx world.inner }

/-- The store called `name`, whose steps fail as the world says. -/
def store (name : String) (inner : LeafStore σ τ κ ν) : LeafStore (Faulty σ) τ κ ν :=
  let label (call : Call) := (Event.called name call .null).label
  { begin := act Event.begun.label inner.begin
    beginRead := act Event.begunRead.label inner.beginRead
    get := fun tx key => act (label .get) (inner.get tx key)
    find := fun tx key => act (label .find) (inner.find tx key)
    add := fun tx key value => act (label .add) (inner.add tx key value)
    remove := fun tx key => act (label .remove) (inner.remove tx key)
    getOrAdd := fun tx key build => act (label .getOrAdd) (inner.getOrAdd tx key build)
    addOrUpdate := fun tx key value update =>
      act (label .addOrUpdate) (inner.addOrUpdate tx key value update)
    keys := safely inner.keys
    values := safely inner.values }

end Faulty

end DocStore
