import DocStore.Action
import DocStore.Store.Error

/-! Leaf stores: transactional maps from keys to values, the only thing the engine builds on. A leaf
store acts on a world `σ`, which holds its contents and whatever else its backend needs; nothing is
assumed of what a call answers or changes. -/
namespace DocStore

abbrev StoreAction (σ α : Type) := Action StoreError σ α

/-- The ways to end a transaction `τ`. -/
structure Transactions (σ τ : Type) where
  id : τ → Nat
  commit : τ → StoreAction σ Unit
  abort : τ → StoreAction σ Unit
  /-- Gives up a transaction that was neither committed nor aborted. -/
  release : τ → σ → σ

structure LeafStore (σ τ κ ν : Type) where
  begin : StoreAction σ τ
  beginRead : StoreAction σ τ
  /-- The value of a key; a missing key is an error. -/
  get : τ → κ → StoreAction σ ν
  find : τ → κ → StoreAction σ (Option ν)
  /-- Adds a value unless the key is present; whether it was added. -/
  add : τ → κ → ν → StoreAction σ Bool
  remove : τ → κ → StoreAction σ (Option ν)
  /-- The value of a key, which is built and added when the key is missing. -/
  getOrAdd : τ → κ → (κ → ν) → StoreAction σ ν
  /-- Stores a value for a missing key, else the update of the current one. -/
  addOrUpdate : τ → κ → ν → (κ → ν → ν) → StoreAction σ ν
  /-- All keys, outside any transaction. -/
  keys : StoreAction σ (List κ)
  /-- All values, outside any transaction. -/
  values : StoreAction σ (List ν)

namespace Transactions

variable {ε σ τ α : Type}

/-- Runs `body` in the transaction that `begin` opens. The transaction is committed when `body`
succeeds and released when it fails. -/
def within (transactions : Transactions σ τ) (wrap : StoreError → ε) (begin : StoreAction σ τ)
    (body : τ → Action ε σ α) : Action ε σ α := do
  let tx ← begin.mapError wrap
  match ← (body tx).attempt with
  | .ok value => do
    (transactions.commit tx).mapError wrap
    pure value
  | .error error => do
    Action.changing (transactions.release tx)
    throw error

variable {transactions : Transactions σ τ} {wrap : StoreError → ε} {begin : StoreAction σ τ}
  {body : τ → Action ε σ α} {tx : τ} {world opened done next : σ}

theorem within_of_ok {value : α} (begun : begin world = (.ok tx, opened))
    (success : body tx opened = (.ok value, done))
    (committed : transactions.commit tx done = (.ok (), next)) :
    transactions.within wrap begin body world = (.ok value, next) := by
  rw [within, Action.bind_of_ok (Action.mapError_of_ok begun),
    Action.bind_of_ok (Action.attempt_apply success)]
  exact Action.bind_of_ok (Action.mapError_of_ok committed)

theorem within_of_error {error : ε} (begun : begin world = (.ok tx, opened))
    (failure : body tx opened = (.error error, done)) :
    transactions.within wrap begin body world = (.error error, transactions.release tx done) := by
  rw [within, Action.bind_of_ok (Action.mapError_of_ok begun),
    Action.bind_of_ok (Action.attempt_apply failure)]
  rfl

end Transactions

namespace LeafStore

variable {σ τ κ ν : Type}

/-- Looks a key up by getting it, a missing key being no error. -/
def findByGet (store : LeafStore σ τ κ ν) (tx : τ) (key : κ) : StoreAction σ (Option ν) := do
  match ← (store.get tx key).attempt with
  | .ok value => pure (some value)
  | .error .keyNotFound => pure none
  | .error error => throw error

/-- The store with lookups and read transactions made from gets and ordinary transactions. -/
def withPlainLookups (store : LeafStore σ τ κ ν) : LeafStore σ τ κ ν :=
  { store with beginRead := store.begin, find := store.findByGet }

end LeafStore

end DocStore
