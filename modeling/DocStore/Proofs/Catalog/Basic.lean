import DocStore.Collection.Basic

namespace DocStore

/-- The record of each id, and the entry of each value of each index. -/
structure Catalog (α ι : Type) where
  records : ι → Option α
  entries : IndexName → IndexValue → Option (IdSet ι)

variable {α ι : Type}

namespace Catalog

def empty : Catalog α ι := ⟨fun _ => none, fun _ _ => none⟩

variable [DecidableEq ι]

def setRecord (catalog : Catalog α ι) (id : ι) (record : Option α) : Catalog α ι :=
  { catalog with records := fun other => if other = id then record else catalog.records other }

omit [DecidableEq ι] in
def setEntry (catalog : Catalog α ι) (name : IndexName) (value : IndexValue) (set : IdSet ι) :
    Catalog α ι :=
  { catalog with
    entries := fun otherName otherValue =>
      if otherName = name ∧ otherValue = value then some set
      else catalog.entries otherName otherValue }

/-- The set of an entry after an update: `first` for a missing entry. -/
def revised (first : IdSet ι) (update : IdSet ι → IdSet ι) (current : Option (IdSet ι)) : IdSet ι :=
  match current with
  | some set => update set
  | none => first

def revise (first : IdSet ι) (update : IdSet ι → IdSet ι) (catalog : Catalog α ι)
    (entry : IndexName × IndexValue) : Catalog α ι :=
  catalog.setEntry entry.1 entry.2 (revised first update (catalog.entries entry.1 entry.2))

/-- The catalog after the record with an id was added and listed in some entries. -/
def insert (catalog : Catalog α ι) (id : ι) (record : α) (entries : List (IndexName × IndexValue)) :
    Catalog α ι :=
  entries.foldl (revise (.single id) fun set => set.insert id) (catalog.setRecord id (some record))

/-- The catalog after the record with an id was removed and struck off some entries. -/
def remove (catalog : Catalog α ι) (id : ι) (entries : List (IndexName × IndexValue)) :
    Catalog α ι :=
  entries.foldl (revise .empty fun set => set.erase id) (catalog.setRecord id none)

theorem setRecord_of_none {catalog : Catalog α ι} {id : ι} (absent : catalog.records id = none) :
    catalog.setRecord id none = catalog := by
  have same : (catalog.setRecord id none).records = catalog.records := by
    funext other
    by_cases here : other = id
    · simp [setRecord, here, absent]
    · simp [setRecord, here]
  exact congrArg (fun records => Catalog.mk records catalog.entries) same

variable {first : IdSet ι} {update : IdSet ι → IdSet ι}

omit [DecidableEq ι] in
theorem foldl_revise_records (entries : List (IndexName × IndexValue)) (catalog : Catalog α ι) :
    (entries.foldl (revise first update) catalog).records = catalog.records := by
  induction entries generalizing catalog with
  | nil => rfl
  | cons entry rest ih => rw [List.foldl_cons, ih]; rfl

omit [DecidableEq ι] in
/-- Updates of entries of different indexes do not meet. -/
theorem foldl_revise_entries {entries : List (IndexName × IndexValue)}
    (distinct : (entries.map Prod.fst).Nodup) (catalog : Catalog α ι) (name : IndexName)
    (value : IndexValue) :
    (entries.foldl (revise first update) catalog).entries name value =
      if (name, value) ∈ entries then some (revised first update (catalog.entries name value))
      else catalog.entries name value := by
  induction entries generalizing catalog with
  | nil => simp
  | cons entry rest ih =>
    simp only [List.map_cons, List.nodup_cons] at distinct
    rw [List.foldl_cons, ih distinct.2]
    by_cases same : (name, value) = entry
    · subst same
      have absent : (name, value) ∉ rest := fun member =>
        distinct.1 (List.mem_map.mpr ⟨_, member, rfl⟩)
      simp [absent, revise, setEntry]
    · have kept : (revise first update catalog entry).entries name value =
          catalog.entries name value := by
        have differs : ¬ (name = entry.1 ∧ value = entry.2) := fun ⟨sameName, sameValue⟩ =>
          same (Prod.ext sameName sameValue)
        simp [revise, setEntry, differs]
      simp [kept, same]

@[simp] theorem insert_records (catalog : Catalog α ι) (id : ι) (record : α)
    (entries : List (IndexName × IndexValue)) (other : ι) :
    (catalog.insert id record entries).records other =
      if other = id then some record else catalog.records other := by
  rw [insert, foldl_revise_records]; rfl

@[simp] theorem remove_records (catalog : Catalog α ι) (id : ι)
    (entries : List (IndexName × IndexValue)) (other : ι) :
    (catalog.remove id entries).records other =
      if other = id then none else catalog.records other := by
  rw [remove, foldl_revise_records]; rfl

end Catalog

end DocStore
