import DocStore.Proofs.Catalog.Basic
import Mathlib.Data.Set.Insert
import Mathlib.Order.BooleanAlgebra.Set

namespace DocStore

/-- The record of each id, and the ids that each entry lists, if there is such an entry. -/
structure Extent (α ι : Type) where
  records : ι → Option α
  entries : IndexName × IndexValue → Option (Set ι)

variable {α ι : Type}

/-- The catalog without the order of the ids in its entries. -/
def Catalog.extent (catalog : Catalog α ι) : Extent α ι where
  records := catalog.records
  entries entry := (catalog.entries entry.1 entry.2).map fun set => {id | id ∈ set}

/-- What one call on a store does to the record of an id or to its place in an entry. -/
inductive Effect (α : Type) where
  | keep (record : Option α)
  | list (entry : IndexName × IndexValue)
  | strike (entry : IndexName × IndexValue)

namespace Extent

/-- The ids of an entry are revised. An entry that did not exist has listed nothing, and exists from now
on. -/
def revise (extent : Extent α ι) (entry : IndexName × IndexValue) (update : Set ι → Set ι) :
    Extent α ι :=
  { extent with
    entries := Function.update extent.entries entry (some (update ((extent.entries entry).getD ∅))) }

theorem revise_comm (extent : Extent α ι) (first second : IndexName × IndexValue)
    (update other : Set ι → Set ι) (commute : ∀ ids, other (update ids) = update (other ids)) :
    (extent.revise first update).revise second other =
      (extent.revise second other).revise first update := by
  by_cases same : first = second
  · subst same
    simp [revise, commute]
  · simp [revise, Function.update_of_ne same, Function.update_of_ne (Ne.symm same),
      Function.update_comm same]

variable [DecidableEq ι]

def after (id : ι) (extent : Extent α ι) : Effect α → Extent α ι
  | .keep record => { extent with records := Function.update extent.records id record }
  | .list entry => extent.revise entry (insert id)
  | .strike entry => extent.revise entry fun ids => ids \ {id}

def afterAll (id : ι) (effects : List (Effect α)) (extent : Extent α ι) : Extent α ι :=
  effects.foldl (after id) extent

variable {id other : ι}

theorem after_comm (differ : id ≠ other) (extent : Extent α ι) (first second : Effect α) :
    (extent.after id first).after other second = (extent.after other second).after id first := by
  cases first <;> cases second
  case keep.keep => simp [after, Function.update_comm differ]
  case list.list first second =>
    exact revise_comm extent first second (insert id) (insert other) (Set.insert_comm other id)
  case list.strike first second =>
    exact revise_comm extent first second (insert id) (fun ids => ids \ {other})
      fun ids => (Set.insert_sdiff_singleton_comm differ ids).symm
  case strike.list first second =>
    exact revise_comm extent first second (fun ids => ids \ {id}) (insert other)
      fun ids => Set.insert_sdiff_singleton_comm differ.symm ids
  case strike.strike first second =>
    exact revise_comm extent first second (fun ids => ids \ {id}) (fun ids => ids \ {other})
      fun _ => Set.sdiff_sdiff_comm
  all_goals rfl

theorem afterAll_append (effects later : List (Effect α)) (extent : Extent α ι) :
    extent.afterAll id (effects ++ later) = (extent.afterAll id effects).afterAll id later :=
  List.foldl_append

theorem afterAll_comm (differ : id ≠ other) (effects others : List (Effect α))
    (extent : Extent α ι) :
    (extent.afterAll id effects).afterAll other others =
      (extent.afterAll other others).afterAll id effects := by
  have single (effect : Effect α) (extent : Extent α ι) :
      (extent.afterAll id effects).after other effect =
        (extent.after other effect).afterAll id effects :=
    (List.foldl_hom (fun extent => extent.after other effect) fun extent first =>
      (after_comm differ extent first effect).symm).symm
  exact List.foldl_hom (fun extent => extent.afterAll id effects) fun extent effect =>
    single effect extent

theorem afterAll_records (differ : other ≠ id) (effects : List (Effect α)) (extent : Extent α ι) :
    (extent.afterAll id effects).records other = extent.records other := by
  induction effects generalizing extent with
  | nil => rfl
  | cons effect rest ih =>
    refine (ih _).trans ?_
    cases effect with
    | keep record => exact Function.update_of_ne differ _ _
    | list | strike => rfl

end Extent

namespace Catalog

variable [DecidableEq ι]

theorem extent_setRecord (catalog : Catalog α ι) (id : ι) (record : Option α) :
    (catalog.setRecord id record).extent = catalog.extent.after id (.keep record) := by
  simp only [extent, setRecord, Extent.after]
  congr 1
  funext other
  exact (Function.update_apply ..).symm

omit [DecidableEq ι] in
/-- An update of an entry is known by what it does to the ids of the entry. -/
theorem extent_revise {first : IdSet ι} {update : IdSet ι → IdSet ι} (ids : Set ι → Set ι)
    (fresh : {id | id ∈ first} = ids ∅) (revised : ∀ set, {id | id ∈ update set} = ids {id | id ∈ set})
    (catalog : Catalog α ι) (entry : IndexName × IndexValue) :
    (catalog.revise first update entry).extent = catalog.extent.revise entry ids := by
  simp only [extent, revise, setEntry, Extent.revise]
  congr 1
  funext other
  by_cases same : other = entry
  · subst same
    cases catalog.entries other.1 other.2 with
    | none => simp [Catalog.revised, fresh]
    | some set => simp [Catalog.revised, revised]
  · have differs : ¬ (other.1 = entry.1 ∧ other.2 = entry.2) := fun parts =>
      same (Prod.ext parts.1 parts.2)
    simp [Function.update_of_ne same, differs]

theorem extent_list (catalog : Catalog α ι) (id : ι) (entry : IndexName × IndexValue) :
    (catalog.revise (.single id) (fun set => set.insert id) entry).extent =
      catalog.extent.after id (.list entry) := by
  refine extent_revise (Insert.insert id) ?_ (fun set => ?_) catalog entry
  · ext other
    simp
  · ext other
    simp [or_comm]

theorem extent_strike (catalog : Catalog α ι) (id : ι) (entry : IndexName × IndexValue) :
    (catalog.revise .empty (fun set => set.erase id) entry).extent =
      catalog.extent.after id (.strike entry) := by
  refine extent_revise (fun ids => ids \ {id}) ?_ (fun set => ?_) catalog entry
  · ext other
    simp
  · ext other
    simp

end Catalog

end DocStore
