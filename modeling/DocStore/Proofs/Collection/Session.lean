import DocStore.Record.Numbered
import DocStore.Proofs.Collection.Update
import DocStore.Proofs.Collection.Search
import Mathlib.Data.List.Induction

/-! Sessions: a collection is put through some steps one after the other, in any order and with any
transactions left open. The history of a session lists the steps with what each of them answered, the
latest first; what the session has changed is read off the history alone. -/
namespace DocStore

/-- One use of a collection with transactions `τ`. -/
inductive Step (τ α ι : Type) where
  | alone (change : Change α ι)
  | begin
  | within (tx : τ) (change : Change α ι)
  | commit (tx : τ)
  | abort (tx : τ)
  /-- A transaction is dropped without being committed or aborted. -/
  | release (tx : τ)
  | find (scope : Scope) (expr : Expr)

/-- The step adds a record, if it can. -/
def Step.Puts {τ α ι : Type} (step : Step τ α ι) (record : α) : Prop :=
  step = .alone (.put record) ∨ ∃ tx, step = .within tx (.put record)

inductive Outcome (τ α : Type) where
  | changed (answer : Except QueryError Bool)
  | begun (answer : Except QueryError τ)
  | ended (answer : Except StoreError Unit)
  | released
  | found (answer : Except QueryError (List α))

abbrev History (τ α ι : Type) := List (Step τ α ι × Outcome τ α)

namespace History

variable {τ α ι : Type}

/-- The changes made, each visible at once, the latest first. -/
def changes : History τ α ι → List (Change α ι)
  | [] => []
  | (.alone change, .changed answer) :: earlier => change.tried answer (changes earlier)
  | (.within _ change, .changed answer) :: earlier => change.tried answer (changes earlier)
  | _ :: earlier => changes earlier

variable [DecidableEq τ]

/-- The changes made inside one transaction, the latest first. -/
def pending : History τ α ι → τ → List (Change α ι)
  | [], _ => []
  | (.within other change, .changed answer) :: earlier, tx =>
    if other = tx then change.tried answer (pending earlier tx) else pending earlier tx
  | _ :: earlier, tx => pending earlier tx

/-- The changes that were made known: those with a transaction of their own when they were made, the
others when their transaction was committed. The latest one stands first. -/
def published : History τ α ι → List (Change α ι)
  | [] => []
  | (.alone change, .changed answer) :: earlier => change.tried answer (published earlier)
  | (.commit tx, .ended (.ok ())) :: earlier => pending earlier tx ++ published earlier
  | _ :: earlier => published earlier

end History

namespace Collection

variable {σ τ α ι : Type} [DecidableEq ι] [Identifier ι] [Record α ι]

def perform (collection : Collection σ τ α ι) : Step τ α ι → σ → Outcome τ α × σ
  | .alone change, world => (collection.changeAlone change world).map .changed id
  | .begin, world => (collection.begin world).map .begun id
  | .within tx change, world => (collection.changeIn tx change world).map .changed id
  | .commit tx, world => (collection.transactions.commit tx world).map .ended id
  | .abort tx, world => (collection.transactions.abort tx world).map .ended id
  | .release tx, world => (.released, collection.transactions.release tx world)
  | .find scope expr, world => (collection.find scope expr world).map .found id

def play (collection : Collection σ τ α ι) (steps : List (Step τ α ι)) (world : σ) :
    History τ α ι × σ :=
  steps.foldl
    (fun (history, world) step =>
      let (outcome, next) := collection.perform step world
      ((step, outcome) :: history, next))
    ([], world)

variable {collection : Collection σ τ α ι} {start : σ}

/-- What every admitted step preserves holds after any session of admitted steps. -/
theorem play_invariant (Admitted : Step τ α ι → Prop) (Holds : History τ α ι → σ → Prop)
    (initial : Holds [] start)
    (kept : ∀ step history world, Admitted step → Holds history world →
      Holds ((step, (collection.perform step world).1) :: history) (collection.perform step world).2)
    {steps : List (Step τ α ι)} (admitted : ∀ step ∈ steps, Admitted step) :
    Holds (collection.play steps start).1 (collection.play steps start).2 := by
  induction steps using List.reverseRecOn with
  | nil => exact initial
  | append_singleton earlier step ih =>
    have before := ih fun other member => admitted other (by simp [member])
    rw [play, List.foldl_append]
    exact kept step _ _ (admitted step (by simp)) before

/-- A record with a member inside a member. -/
def nestedRecord : Numbered := ⟨1, [("a", .object [("b", .number (.integer 1))])]⟩

/-- Another record with the same member inside a member, and one more. -/
def flaggedRecord : Numbered := ⟨2, [("a", .object [("b", .number (.integer 1))]), ("c", .boolean true)]⟩

/-- A record with a dot in the key of a member. -/
def dottedRecord : Numbered := ⟨1, [("a.b", .number (.integer 1))]⟩

/-- The query whether the member at a path is the number 1. -/
def isOne (path : Path) : Expr := .compare .equal (.member path) (.literal (.number (.integer 1)))

end Collection

end DocStore
