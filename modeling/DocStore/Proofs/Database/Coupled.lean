import DocStore.Proofs.Database.Rows
import DocStore.Proofs.Database.Confined

namespace DocStore

namespace Action

variable {ε ε' σ σ' α β : Type} {Related : σ → σ' → Prop}

/-- On related worlds both actions answer alike and leave related worlds. -/
def Couples (Related : σ → σ' → Prop) (first : Action ε σ α) (second : Action ε σ' α) : Prop :=
  ∀ left right, Related left right →
    (first left).1 = (second right).1 ∧ Related (first left).2 (second right).2

theorem couples_pure (value : α) :
    Couples Related (pure value : Action ε σ α) (pure value : Action ε σ' α) :=
  fun _ _ related => ⟨rfl, related⟩

theorem couples_throw (error : ε) :
    Couples Related (throw error : Action ε σ α) (throw error : Action ε σ' α) :=
  fun _ _ related => ⟨rfl, related⟩

theorem couples_ofExcept (outcome : Except ε α) :
    Couples Related (ofExcept outcome : Action ε σ α) (ofExcept outcome : Action ε σ' α) :=
  fun _ _ related => ⟨rfl, related⟩

variable {first : Action ε σ α} {second : Action ε σ' α}

theorem Couples.ends (couples : Couples Related first second) {left : σ} {right : σ'}
    (related : Related left right) :
    ∃ outcome left' right', first left = (outcome, left') ∧ second right = (outcome, right') ∧
      Related left' right' := by
  obtain ⟨same, later⟩ := couples left right related
  exact ⟨(first left).1, _, _, rfl, by rw [same], later⟩

theorem Couples.bind {rest : α → Action ε σ β} {others : α → Action ε σ' β}
    (couples : Couples Related first second)
    (further : ∀ value, Couples Related (rest value) (others value)) :
    Couples Related (first >>= rest) (second >>= others) := by
  intro left right related
  obtain ⟨outcome, left', right', ended, endedToo, later⟩ := couples.ends related
  cases outcome with
  | ok value =>
    rw [bind_of_ok ended, bind_of_ok endedToo]
    exact further value left' right' later
  | error error =>
    rw [bind_of_error ended, bind_of_error endedToo]
    exact ⟨rfl, later⟩

theorem Couples.mapError {wrap : ε → ε'} (couples : Couples Related first second) :
    Couples Related (first.mapError wrap) (second.mapError wrap) := fun left right related =>
  have ended := couples left right related
  ⟨congrArg (Except.mapError wrap) ended.1, ended.2⟩

theorem couples_mapM {γ : Type} {act : γ → Action ε σ α} {other : γ → Action ε σ' α}
    (couples : ∀ item, Couples Related (act item) (other item)) (items : List γ) :
    Couples Related (items.mapM act) (items.mapM other) := by
  induction items with
  | nil => exact couples_pure []
  | cons item rest ih =>
    rw [List.mapM_cons, List.mapM_cons]
    exact (couples item).bind fun _ => ih.bind fun _ => couples_pure _

end Action

namespace Database

open DocStore.Action (Couples couples_pure couples_throw couples_ofExcept couples_mapM)

/-- Both contents have the same tables among some, with the same rows. -/
def AgreeOn (among : String → Prop) (contents others : Contents) : Prop :=
  ∀ table, among table → contents.get? table = others.get? table

section

variable {among : String → Prop} {contents others further : Contents}

theorem agreeOn_refl (contents : Contents) : AgreeOn among contents contents := fun _ _ => rfl

theorem AgreeOn.trans (agree : AgreeOn among contents others) (later : AgreeOn among others further) :
    AgreeOn among contents further :=
  fun table inside => (agree table inside).trans (later table inside)

theorem AgreeOn.put (agree : AgreeOn among contents others) (table : String) (rows : Rows) :
    AgreeOn among (contents.put table rows) (others.put table rows) := by
  intro other inside
  rw [Table.get?_put, Table.get?_put]
  split
  case isTrue => rfl
  case isFalse => exact agree other inside

theorem AgreeOn.put_outside (agree : AgreeOn among contents others) {table : String}
    (outside : ¬ among table) (rows : Rows) : AgreeOn among (contents.put table rows) others := by
  intro other inside
  have differs : other ≠ table := fun same => outside (same ▸ inside)
  rw [Table.get?_put, if_neg differs]
  exact agree other inside

end

variable {tables : List String} {left right : Database} {tx ty : Nat} {table : String}

/-- What a transaction on some tables sees: in all other tables what is committed, and everywhere as long
as it has changed nothing. -/
structure Sees (tables : List String) (base : Database) (contents : Contents) (changed : Bool) :
    Prop where
  outside : AgreeOn (· ∉ tables) contents base.committed.contents
  unchanged : changed = false → contents = base.committed.contents

/-- In either database a transaction holds the write lock, and both see the same in some tables. -/
def Writers (tables : List String) (left right : Database) (tx ty : Nat) (first second : Database) :
    Prop :=
  ∃ contents changed others altered,
    first = left.writing tx contents changed ∧ second = right.writing ty others altered ∧
      AgreeOn (· ∈ tables) contents others ∧ Sees tables left contents changed ∧
      Sees tables right others altered

/-- In either database a transaction sees what is committed, or has not looked at anything yet. -/
def Readers (left right : Database) (tx ty : Nat) (first second : Database) : Prop :=
  ∃ view seen, first = left.reading tx view ∧ second = right.reading ty seen ∧
    view.getD left.committed = left.committed ∧ seen.getD right.committed = right.committed

/-- Lookups in some tables answer alike on related databases. -/
def SelectsAlike (tables : List String) (Related : Database → Database → Prop) (tx ty : Nat) : Prop :=
  ∀ table key, foldName table ∈ tables →
    Couples Related (select table tx key) (select table ty key)

theorem writers_select : SelectsAlike tables (Writers tables left right tx ty) tx ty := by
  rintro table key inside _ _ ⟨contents, changed, others, altered, rfl, rfl, agree, sees, seesToo⟩
  have related : Writers tables left right tx ty (left.writing tx contents changed)
      (right.writing ty others altered) :=
    ⟨contents, changed, others, altered, rfl, rfl, agree, sees, seesToo⟩
  have same := agree _ inside
  cases present : contents.get? (foldName table) with
  | none =>
    rw [select_missing opened_writing present, select_missing opened_writing (same.symm.trans present)]
    exact ⟨rfl, related⟩
  | some rows =>
    rw [select_writing present, select_writing (same.symm.trans present)]
    exact ⟨rfl, related⟩

/-- A statement that changes a table changes it in both databases in the same way. -/
theorem writers_modify {α : Type} (change : Rows → α × Option Rows) (inside : foldName table ∈ tables) :
    Couples (Writers tables left right tx ty) (modify table tx change) (modify table ty change) := by
  rintro _ _ ⟨contents, changed, others, altered, rfl, rfl, agree, sees, seesToo⟩
  have related : Writers tables left right tx ty (left.writing tx contents changed)
      (right.writing ty others altered) :=
    ⟨contents, changed, others, altered, rfl, rfl, agree, sees, seesToo⟩
  have same := agree _ inside
  cases present : contents.get? (foldName table) with
  | none =>
    rw [modify_missing opened_writing present, modify_missing opened_writing (same.symm.trans present)]
    exact ⟨rfl, related⟩
  | some rows =>
    rw [modify_writing present, modify_writing (same.symm.trans present)]
    refine ⟨rfl, ?_⟩
    cases (change rows).2 with
    | none => exact related
    | some later =>
      exact ⟨_, true, _, true, rfl, rfl, agree.put _ later,
        ⟨sees.outside.put_outside (fun outside => outside inside) later, nofun⟩,
        ⟨seesToo.outside.put_outside (fun outside => outside inside) later, nofun⟩⟩

private theorem select_reading_missing {view : Option Snapshot} {base : Database} {key : String}
    (sees : view.getD base.committed = base.committed)
    (missing : base.committed.contents.get? (foldName table) = none) :
    select table tx key (base.reading tx view) =
      (.error (.ofDatabase (.execute (.missingTable table))), base.reading tx view) := by
  refine select_missing opened_reading ?_
  change (view.getD base.committed).contents.get? _ = none
  rw [sees]
  exact missing

theorem readers_select (agree : AgreeOn (· ∈ tables) left.committed.contents right.committed.contents) :
    SelectsAlike tables (Readers left right tx ty) tx ty := by
  rintro table key inside _ _ ⟨view, seen, rfl, rfl, sees, seesToo⟩
  have same := agree _ inside
  cases present : left.committed.contents.get? (foldName table) with
  | none =>
    rw [select_reading_missing sees present, select_reading_missing seesToo (same.symm.trans present)]
    exact ⟨rfl, view, seen, rfl, rfl, sees, seesToo⟩
  | some rows =>
    rw [select_reading sees present, select_reading seesToo (same.symm.trans present)]
    exact ⟨rfl, _, _, rfl, rfl, rfl, rfl⟩

section

variable {κ ν : Type} {Related : Database → Database → Prop}

theorem couples_written {α : Type} (codec : Codec α) (value : α) :
    Couples Related (written codec value) (written codec value) := couples_ofExcept _

theorem couples_readable {α : Type} (codec : Codec α) (text : String) :
    Couples Related (readable codec text) (readable codec text) := by
  unfold readable
  cases codec.decode? text with
  | some value => exact couples_pure value
  | none => exact couples_throw _

variable (keys : Codec κ) (values : Codec ν)

theorem SelectsAlike.find (alike : SelectsAlike tables Related tx ty) (inside : foldName table ∈ tables)
    (key : κ) :
    Couples Related (Database.find table keys values tx key) (Database.find table keys values ty key) := by
  refine (couples_written keys key).bind fun text => ?_
  refine (alike table text inside).bind fun held => ?_
  cases held with
  | some text => exact (couples_readable values text).bind fun _ => couples_pure _
  | none => exact couples_pure none

theorem writers_add (inside : foldName table ∈ tables) (key : κ) (value : ν) :
    Couples (Writers tables left right tx ty) (add table keys values tx key value)
      (add table keys values ty key value) :=
  (couples_written keys key).bind fun _ => (couples_written values value).bind fun _ =>
    writers_modify _ inside

theorem writers_remove (inside : foldName table ∈ tables) (key : κ) :
    Couples (Writers tables left right tx ty) (remove table keys values tx key)
      (remove table keys values ty key) := by
  refine (couples_written keys key).bind fun text => ?_
  refine (writers_select table text inside).bind fun held => ?_
  cases held with
  | some held =>
    exact (writers_modify _ inside).bind fun _ => (couples_readable values held).bind fun _ =>
      couples_pure _
  | none => exact couples_pure none

theorem writers_addOrUpdate (inside : foldName table ∈ tables) (key : κ) (first : ν)
    (update : κ → ν → ν) :
    Couples (Writers tables left right tx ty) (addOrUpdate table keys values tx key first update)
      (addOrUpdate table keys values ty key first update) :=
  (writers_select.find keys values inside key).bind fun _ => (couples_written keys key).bind fun _ =>
    (couples_written values _).bind fun _ => (writers_modify _ inside).bind fun _ => couples_pure _

end

/-- What actions on some tables leave of a database in which all their transactions have ended. -/
structure Leaves (tables : List String) (before after : Database) : Prop where
  outside : AgreeOn (· ∉ tables) after.committed.contents before.committed.contents
  opened : after.opened = before.opened
  reached : before.next ≤ after.next

/-- Two databases that hold the same in some tables, each of them left so by actions on these tables. -/
structure Quiet (tables : List String) (left right first second : Database) : Prop where
  same : AgreeOn (· ∈ tables) first.committed.contents second.committed.contents
  left : Leaves tables left first
  right : Leaves tables right second

/-- Every open transaction has a number that was given out. -/
def Bounded (db : Database) : Prop := ∀ tx ∈ db.opened.keys, tx < db.next

namespace Leaves

variable {before middle after : Database}

theorem refl (tables : List String) (db : Database) : Leaves tables db db :=
  ⟨agreeOn_refl _, rfl, Nat.le_refl _⟩

theorem trans (first : Leaves tables before middle) (second : Leaves tables middle after) :
    Leaves tables before after :=
  ⟨second.outside.trans first.outside, second.opened.trans first.opened,
    first.reached.trans second.reached⟩

theorem bounded (leaves : Leaves tables before after) (bounded : before.Bounded) : after.Bounded := by
  intro tx member
  rw [leaves.opened] at member
  exact (bounded tx member).trans_le leaves.reached

theorem isLocked (leaves : Leaves tables before after) : after.isLocked = before.isLocked := by
  rw [Database.isLocked, Database.isLocked, leaves.opened]

theorem next (leaves : Leaves tables before after) (version : Nat) :
    Leaves tables before ⟨⟨after.committed.contents, version⟩, after.opened, after.next + 1⟩ :=
  ⟨leaves.outside, leaves.opened, Nat.le_succ_of_le leaves.reached⟩

end Leaves

theorem quiet_within {ε α : Type} {wrap : StoreError → ε} {body : Nat → Action ε Database α}
    (boundedLeft : left.Bounded) (boundedRight : right.Bounded)
    (couples : ∀ {left right tx ty},
      AgreeOn (· ∈ tables) left.committed.contents right.committed.contents →
        Couples (Readers left right tx ty) (body tx) (body ty)) :
    Couples (Quiet tables left right) (transactions.within wrap beginRead body)
      (transactions.within wrap beginRead body) := by
  intro first second quiet
  have begun : Readers { first with next := first.next + 1 } { second with next := second.next + 1 }
      first.next second.next
      ({ first with next := first.next + 1 }.reading first.next none)
      ({ second with next := second.next + 1 }.reading second.next none) :=
    ⟨none, none, rfl, rfl, rfl, rfl⟩
  have agree : AgreeOn (· ∈ tables) { first with next := first.next + 1 }.committed.contents
      { second with next := second.next + 1 }.committed.contents := quiet.same
  obtain ⟨outcome, _, _, ended, endedToo, view, seen, rfl, rfl, _⟩ := (couples agree).ends begun
  rw [within_of_reading (quiet.left.bounded boundedLeft) ended,
    within_of_reading (quiet.right.bounded boundedRight) endedToo]
  exact ⟨rfl, quiet.same, quiet.left.next _, quiet.right.next _⟩

theorem quiet_keys {κ ν : Type} (keys : Codec κ) (values : Codec ν) (inside : foldName table ∈ tables) :
    Couples (Quiet tables left right) (store table keys values).keys (store table keys values).keys := by
  have rows : Couples (Quiet tables left right) (committedRows table) (committedRows table) := by
    intro first second quiet
    simp only [committedRows, quiet.same _ inside]
    cases second.committed.contents.get? (foldName table) with
    | none => exact ⟨rfl, quiet⟩
    | some rows => exact ⟨rfl, quiet⟩
  exact rows.bind fun rows => couples_mapM (couples_readable keys) rows.keys

end Database

end DocStore
