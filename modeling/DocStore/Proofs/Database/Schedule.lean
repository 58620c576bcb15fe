import DocStore.Proofs.Database.Confined
import Mathlib.Data.List.Induction

/-! Sessions over the stores of one database: any number of transactions take steps in any order. The
history of a session lists what happened and the state of the database in which it happened, the latest
first. `Moved` says what one step can do to a database whose transactions are `Regular`. -/
namespace DocStore

/-- The transaction is open and has taken the write lock. -/
def Database.holdsLock (db : Database) (tx : Nat) : Bool :=
  (db.opened.get? tx).any OpenTransaction.writing

/-- Some leaf stores over the tables of one database. -/
structure Stores (Store : Type) where
  Key : Store → Type
  Value : Store → Type
  table : Store → String
  keys : (store : Store) → Codec (Key store)
  values : (store : Store) → Codec (Value store)

namespace Stores

variable {Store : Type} (stores : Stores Store)

def leaf (store : Store) : LeafStore Database Nat (stores.Key store) (stores.Value store) :=
  Database.store (stores.table store) (stores.keys store) (stores.values store)

structure Asked where
  store : Store
  request : Request (stores.Key store) (stores.Value store)

structure Replied where
  store : Store
  reply : Reply (stores.Value store)

def ask (tx : Nat) (asked : stores.Asked) : StoreAction Database stores.Replied :=
  Replied.mk asked.store <$> (stores.leaf asked.store).answer tx asked.request

inductive Move where
  | begin (store : Store)
  | beginRead (store : Store)
  | ask (tx : Nat) (asked : stores.Asked)
  | commit (tx : Nat)
  | abort (tx : Nat)
  | release (tx : Nat)

/-- A step of a session with what came of it. -/
inductive Event where
  | begun (outcome : Except StoreError Nat)
  | begunRead (outcome : Except StoreError Nat)
  | asked (tx : Nat) (asked : stores.Asked) (outcome : Except StoreError stores.Replied)
  | committed (tx : Nat) (outcome : Except StoreError Unit)
  | aborted (tx : Nat) (outcome : Except StoreError Unit)
  | released (tx : Nat)

def perform : stores.Move → Database → stores.Event × Database
  | .begin store, db => ((stores.leaf store).begin db).map .begun id
  | .beginRead store, db => ((stores.leaf store).beginRead db).map .begunRead id
  | .ask tx asked, db => (stores.ask tx asked db).map (.asked tx asked) id
  | .commit tx, db => (Database.transactions.commit tx db).map (.committed tx) id
  | .abort tx, db => (Database.transactions.abort tx db).map (.aborted tx) id
  | .release tx, db => (.released tx, Database.transactions.release tx db)

/-- What happened in a session, each event with the database before it, the latest one first. -/
abbrev Past := List (Database × stores.Event)

/-- Takes some steps in turn; gives what happened and the database it led to. -/
def play (moves : List stores.Move) (db : Database) : stores.Past × Database :=
  moves.foldl
    (fun (past, db) move =>
      let (event, next) := stores.perform move db
      ((db, event) :: past, next))
    ([], db)

variable {stores}

/-- The states a session went through, the latest first. -/
def visited (past : stores.Past) (db : Database) : List Database := db :: past.map Prod.fst

/-- What a transaction asked with success, and the replies, the earliest first. -/
def work (tx : Nat) : stores.Past → List (stores.Asked × stores.Replied)
  | [] => []
  | (_, .asked other asked (.ok replied)) :: earlier =>
    if other = tx then work tx earlier ++ [(asked, replied)] else work tx earlier
  | _ :: earlier => work tx earlier

/-- The transactions that were committed while they held the write lock, in the order of their commits. -/
def published : stores.Past → List Nat
  | [] => []
  | (db, .committed tx (.ok ())) :: earlier =>
    if db.holdsLock tx then published earlier ++ [tx] else published earlier
  | _ :: earlier => published earlier

/-- What every admitted step preserves holds after a session that goes through admitted states only. -/
theorem play_invariant (Admitted : Database → Prop) (Holds : stores.Past → Database → Prop)
    {start : Database} (moves : List stores.Move) (initial : Holds [] start)
    (kept : ∀ move past db, Admitted db → Holds past db →
      Holds ((db, (stores.perform move db).1) :: past) (stores.perform move db).2)
    (admitted : ∀ db ∈ visited (stores.play moves start).1 (stores.play moves start).2, Admitted db) :
    Holds (stores.play moves start).1 (stores.play moves start).2 := by
  induction moves using List.reverseRecOn with
  | nil => exact initial
  | append_singleton earlier move ih =>
    rw [play, List.foldl_append] at admitted ⊢
    have before : ∀ db ∈ visited (stores.play earlier start).1 (stores.play earlier start).2,
        Admitted db := fun db member => admitted db (List.mem_cons_of_mem _ member)
    exact kept move _ _ (before _ List.mem_cons_self) (ih before)

end Stores

namespace Database

variable {Store : Type} {stores : Stores Store}

/-- The transactions of a database are as they can become: those with the write lock build on the last
commit and are never more than one, the others have changed nothing. -/
structure Regular (db : Database) : Prop where
  bounded : ∀ tx state, db.opened.get? tx = some state → tx < db.next
  states : ∀ tx state, db.opened.get? tx = some state → (∃ view, state = ⟨view, false, false⟩) ∨
    ∃ contents changed, state = ⟨some ⟨contents, db.committed.version⟩, true, changed⟩
  single : ∀ tx other, db.holdsLock tx = true → db.holdsLock other = true → tx = other

section

variable {db : Database} {tx other : Nat} {view : Option Snapshot} {contents : Contents} {changed : Bool}

theorem get?_reading : (db.reading tx view).opened.get? other =
    if other = tx then some ⟨view, false, false⟩ else db.opened.get? other := Table.get?_put

theorem get?_writing : (db.writing tx contents changed).opened.get? other =
    if other = tx then some ⟨some ⟨contents, db.committed.version⟩, true, changed⟩
    else db.opened.get? other := Table.get?_put

theorem holdsLock_iff : db.holdsLock tx = true ↔
    ∃ state, db.opened.get? tx = some state ∧ state.writing = true := by
  simp [holdsLock, Option.any_eq_true]

theorem not_holdsLock (free : db.isLocked = false) (tx : Nat) : db.holdsLock tx = false := by
  rw [Bool.eq_false_iff]
  intro holds
  obtain ⟨state, opened, writes⟩ := holdsLock_iff.mp holds
  have locked := isLocked_iff.mpr ⟨tx, state, opened, writes⟩
  rw [free] at locked
  cases locked

namespace Regular

theorem alone (regular : Regular db) (holds : db.holdsLock tx = true) (other : Nat)
    (differs : other ≠ tx) : db.holdsLock other = false := by
  rw [Bool.eq_false_iff]
  intro held
  exact differs (regular.single other tx held holds)

theorem renumber (regular : Regular db) : Regular { db with next := db.next + 1 } where
  bounded tx state opened := (regular.bounded tx state opened).trans (Nat.lt_succ_self _)
  states := regular.states
  single := regular.single

theorem reading (regular : Regular db) (bounded : tx < db.next) : Regular (db.reading tx view) where
  bounded other state opened := by
    rw [get?_reading] at opened
    split at opened
    case isTrue same => rw [same]; exact bounded
    case isFalse => exact regular.bounded other state opened
  states other state opened := by
    rw [get?_reading] at opened
    split at opened
    case isTrue => exact .inl ⟨view, (Option.some.inj opened).symm⟩
    case isFalse => exact regular.states other state opened
  single first second holds held := by
    have before {other} (holds : (db.reading tx view).holdsLock other = true) :
        db.holdsLock other = true := by
      obtain ⟨state, opened, writes⟩ := holdsLock_iff.mp holds
      rw [get?_reading] at opened
      split at opened
      case isTrue => cases opened; cases writes
      case isFalse => exact holdsLock_iff.mpr ⟨state, opened, writes⟩
    exact regular.single first second (before holds) (before held)

theorem writing (regular : Regular db) (bounded : tx < db.next)
    (alone : ∀ other, other ≠ tx → db.holdsLock other = false) :
    Regular (db.writing tx contents changed) where
  bounded other state opened := by
    rw [get?_writing] at opened
    split at opened
    case isTrue same => rw [same]; exact bounded
    case isFalse => exact regular.bounded other state opened
  states other state opened := by
    rw [get?_writing] at opened
    split at opened
    case isTrue => exact .inr ⟨contents, changed, (Option.some.inj opened).symm⟩
    case isFalse => exact regular.states other state opened
  single first second holds held := by
    have only {other} (holds : (db.writing tx contents changed).holdsLock other = true) :
        other = tx := by
      by_contra differs
      obtain ⟨state, opened, writes⟩ := holdsLock_iff.mp holds
      rw [get?_writing, if_neg differs] at opened
      have held := holdsLock_iff.mpr ⟨state, opened, writes⟩
      rw [alone other differs] at held
      cases held
    rw [only holds, only held]

theorem close (regular : Regular db) (tx : Nat) : Regular { db with opened := db.opened.erase tx } where
  bounded other state opened := by
    rw [Table.get?_erase] at opened
    split at opened
    case isTrue => cases opened
    case isFalse => exact regular.bounded other state opened
  states other state opened := by
    rw [Table.get?_erase] at opened
    split at opened
    case isTrue => cases opened
    case isFalse => exact regular.states other state opened
  single first second holds held := by
    have before {other} (holds : holdsLock { db with opened := db.opened.erase tx } other = true) :
        db.holdsLock other = true := by
      obtain ⟨state, opened, writes⟩ := holdsLock_iff.mp holds
      rw [Table.get?_erase] at opened
      split at opened
      case isTrue => cases opened
      case isFalse => exact holdsLock_iff.mpr ⟨state, opened, writes⟩
    exact regular.single first second (before holds) (before held)

theorem unlocked_close (regular : Regular db) (holds : db.holdsLock tx = true) :
    isLocked { db with opened := db.opened.erase tx } = false := by
  rw [Bool.eq_false_iff]
  intro locked
  obtain ⟨other, state, opened, writes⟩ := isLocked_iff.mp locked
  rw [Table.get?_erase] at opened
  split at opened
  case isTrue => cases opened
  case isFalse differs =>
    have held := holdsLock_iff.mpr ⟨state, opened, writes⟩
    rw [regular.alone holds other differs] at held
    cases held

theorem publish (regular : Regular db) (free : db.isLocked = false) (committed : Snapshot) :
    Regular { db with committed } where
  bounded := regular.bounded
  states tx state opened := by
    rcases regular.states tx state opened with reader | ⟨contents, changed, rfl⟩
    · exact .inl reader
    · have held : db.holdsLock tx = true := holdsLock_iff.mpr ⟨_, opened, rfl⟩
      rw [not_holdsLock free] at held
      cases held
  single := regular.single

end Regular

end

/-- Every row that an open transaction sees in one of the stores reads back. -/
def LegibleTo (stores : Stores Store) (db : Database) : Prop :=
  ∀ tx state, db.opened.get? tx = some state → ∀ store,
    Legible (stores.table store) (stores.values store) (db.viewOf state).contents

end Database

namespace Stores

open Database (Confined Glimpse Regular LegibleTo)

variable {Store : Type} {stores : Stores Store}

def Event.failed : stores.Event → Bool
  | .begun (.error _) | .begunRead (.error _) | .asked _ _ (.error _) | .committed _ (.error _)
  | .aborted _ (.error _) => true
  | _ => false

/-- What one step can do to a database. -/
inductive Moved (stores : Stores Store) (db : Database) : stores.Event → Database → Prop
  /-- Nothing happened, since something else holds the write lock or the transaction is not open. -/
  | idle {event : stores.Event} (failed : event.failed = true)
      (outside : ∀ tx asked outcome, event = .asked tx asked outcome → db.opened.get? tx = none) :
      Moved stores db event db
  | begun (free : db.isLocked = false) :
      Moved stores db (.begun (.ok db.next))
        ({ db with next := db.next + 1 }.writing db.next db.committed.contents false)
  | begunRead :
      Moved stores db (.begunRead (.ok db.next)) ({ db with next := db.next + 1 }.reading db.next none)
  /-- A transaction without the write lock has asked a store. -/
  | glimpsed {tx view asked meaning needs outcome next}
      (opened : db.opened.get? tx = some ⟨view, false, false⟩)
      (confined : Confined (fun tx => stores.ask tx asked) meaning needs)
      (glimpse : Glimpse meaning needs db tx (view.getD db.committed) outcome next)
      (steady : ∀ error contents, meaning (view.getD db.committed).contents = (.error error, contents) →
        contents = (view.getD db.committed).contents) :
      Moved stores db (.asked tx asked outcome) next
  /-- A transaction with the write lock has asked a store. -/
  | wrote {tx contents changed asked meaning needs touched}
      (opened : db.opened.get? tx = some ⟨some ⟨contents, db.committed.version⟩, true, changed⟩)
      (confined : Confined (fun tx => stores.ask tx asked) meaning needs)
      (untouched : touched = false → changed = false ∧ (meaning contents).2 = contents)
      (steady : ∀ error later, meaning contents = (.error error, later) → later = contents) :
      Moved stores db (.asked tx asked (meaning contents).1)
        (db.writing tx (meaning contents).2 touched)
  /-- Changes were published. -/
  | published {tx contents}
      (opened : db.opened.get? tx = some ⟨some ⟨contents, db.committed.version⟩, true, true⟩) :
      Moved stores db (.committed tx (.ok ()))
        { db with opened := db.opened.erase tx, committed := ⟨contents, db.committed.version + 1⟩ }
  /-- A transaction that has changed nothing was committed. -/
  | closed {tx state} (opened : db.opened.get? tx = some state) (unchanged : state.changed = false) :
      Moved stores db (.committed tx (.ok ())) { db with opened := db.opened.erase tx }
  | discarded {tx event} (ended : event = .aborted tx (.ok ()) ∨ event = .released tx) :
      Moved stores db event { db with opened := db.opened.erase tx }

/-- Steps leave the transactions as they can become. -/
theorem Moved.regular {db next : Database} {event : stores.Event} (moved : Moved stores db event next)
    (regular : Regular db) : Regular next := by
  cases moved with
  | idle => exact regular
  | begun free =>
    exact regular.renumber.writing (Nat.lt_succ_self _) fun other _ => Database.not_holdsLock free other
  | begunRead => exact regular.renumber.reading (Nat.lt_succ_self _)
  | glimpsed opened _ glimpse =>
    have bounded := regular.bounded _ _ opened
    cases glimpse with
    | idle => exact regular
    | looked => exact regular.reading bounded
    | took free => exact regular.writing bounded fun other _ => Database.not_holdsLock free other
    | refused _ _ kept =>
      rcases kept with ⟨rfl, _⟩ | rfl
      · exact regular
      · exact regular.reading bounded
  | wrote opened =>
    exact regular.writing (regular.bounded _ _ opened)
      (regular.alone (Database.holdsLock_iff.mpr ⟨_, opened, rfl⟩))
  | published opened =>
    exact (regular.close _).publish
      (regular.unlocked_close (Database.holdsLock_iff.mpr ⟨_, opened, rfl⟩)) _
  | closed => exact regular.close _
  | discarded => exact regular.close _

theorem ask_confined (asked : stores.Asked) : Database.IsConfined fun tx => stores.ask tx asked :=
  (Database.isConfined_answer _ _ _ asked.request).map _

theorem ask_unopened {db : Database} {tx : Nat} (unopened : db.opened.get? tx = none)
    (asked : stores.Asked) : Database.FailsAt db (stores.ask tx asked) :=
  (Database.answer_unopened _ _ _ unopened asked.request).map _

theorem ask_failed {base : Database} {tx : Nat} {contents : Contents} {changed : Bool}
    {asked : stores.Asked}
    (legible : Database.Legible (stores.table asked.store) (stores.values asked.store) contents) :
    Database.FailsIdleAt (base.writing tx contents changed) (stores.ask tx asked) :=
  (Database.answer_failed _ _ _ legible asked.request).map _

/-- What a failing request means, where the rows can be read: nothing. -/
private theorem steady_of_legible {db : Database} {tx : Nat} {state : OpenTransaction}
    {asked : stores.Asked} {meaning : StoreAction Contents stores.Replied} {needs : Contents → Prop}
    (legible : db.LegibleTo stores) (opened : db.opened.get? tx = some state)
    (confined : Confined (fun tx => stores.ask tx asked) meaning needs) (error : StoreError)
    (later : Contents) (means : meaning (db.viewOf state).contents = (.error error, later)) :
    later = (db.viewOf state).contents := by
  obtain ⟨touched, ended, _⟩ := confined.writing db tx (db.viewOf state).contents true
  rw [means] at ended
  have same := ask_failed (legible tx state opened asked.store) _ _ ended
  have states := congrArg (fun db => db.opened.get? tx) same
  simp only [Database.opened_writing, Option.some.injEq, OpenTransaction.mk.injEq,
    Snapshot.mk.injEq] at states
  exact states.1.1

/-- One step does one of these things. -/
theorem perform_moved {db : Database} (regular : Regular db) (legible : db.LegibleTo stores)
    (move : stores.Move) : Moved stores db (stores.perform move db).1 (stores.perform move db).2 := by
  cases move with
  | begin store =>
    change Moved stores db (.begun (Database.begin db).1) (Database.begin db).2
    cases locked : db.isLocked with
    | true =>
      rw [Database.begin_locked locked]
      exact .idle rfl (by simp)
    | false =>
      rw [Database.begin_unlocked locked]
      exact .begun locked
  | beginRead store => exact .begunRead
  | ask tx asked =>
    change Moved stores db (.asked tx asked (stores.ask tx asked db).1) (stores.ask tx asked db).2
    cases opened : db.opened.get? tx with
    | none =>
      obtain ⟨error, ended⟩ := ask_unopened opened asked
      rw [ended]
      refine .idle rfl ?_
      intro other _ _ same
      cases same
      exact opened
    | some state =>
      obtain ⟨meaning, needs, confined⟩ := ask_confined asked
      have steady := steady_of_legible legible opened confined
      rcases regular.states tx state opened with ⟨view, rfl⟩ | ⟨contents, changed, rfl⟩
      · exact .glimpsed opened confined (confined.glimpse opened rfl) steady
      · obtain ⟨touched, ended, untouched⟩ := confined.writing db tx contents changed
        rw [Database.writing_of_opened opened] at ended
        rw [show stores.ask tx asked db = _ from ended]
        exact .wrote opened confined untouched steady
  | commit tx =>
    change Moved stores db (.committed tx (Database.commit tx db).1) (Database.commit tx db).2
    cases opened : db.opened.get? tx with
    | none =>
      rw [Database.commit_unopened opened]
      exact .idle rfl (by simp)
    | some state =>
      rcases regular.states tx state opened with ⟨view, rfl⟩ | ⟨contents, changed, rfl⟩
      · simp only [Database.commit, opened]
        exact .closed opened rfl
      · cases changed with
        | true =>
          simp only [Database.commit, opened]
          exact .published opened
        | false =>
          simp only [Database.commit, opened]
          exact .closed opened rfl
  | abort tx =>
    change Moved stores db (.aborted tx (Database.abort tx db).1) (Database.abort tx db).2
    cases opened : db.opened.get? tx with
    | none =>
      rw [Database.abort_unopened opened]
      exact .idle rfl (by simp)
    | some state =>
      simp only [Database.abort, opened]
      exact .discarded (.inl rfl)
  | release tx => exact .discarded (.inr rfl)

end Stores

end DocStore
