namespace DocStore

structure IdSet (ι : Type) where
  ids : List ι
  distinct : ids.Nodup

namespace IdSet

variable {ι : Type}

def empty : IdSet ι := ⟨[], List.nodup_nil⟩

def single (id : ι) : IdSet ι := ⟨[id], by simp⟩

def size (set : IdSet ι) : Nat := set.ids.length

def isEmpty (set : IdSet ι) : Bool := set.ids.isEmpty

instance : EmptyCollection (IdSet ι) := ⟨empty⟩

instance : Inhabited (IdSet ι) := ⟨empty⟩

instance : Membership ι (IdSet ι) := ⟨fun set id => id ∈ set.ids⟩

@[simp] theorem mem_ids {set : IdSet ι} {id : ι} : id ∈ set.ids ↔ id ∈ set := Iff.rfl

@[simp] theorem not_mem_empty {id : ι} : id ∉ (empty : IdSet ι) := List.not_mem_nil

@[simp] theorem mem_single {id other : ι} : other ∈ single id ↔ other = id := by
  simp [← mem_ids, single]

variable [DecidableEq ι]

def contains (set : IdSet ι) (id : ι) : Bool := decide (id ∈ set.ids)

def insert (set : IdSet ι) (id : ι) : IdSet ι :=
  if present : id ∈ set.ids then set
  else ⟨set.ids ++ [id], List.nodup_append.mpr ⟨set.distinct, by simp, by
    intro a member b single same
    simp only [List.mem_singleton] at single
    subst single same
    exact present member⟩⟩

def erase (set : IdSet ι) (id : ι) : IdSet ι :=
  ⟨set.ids.filter (· ≠ id), set.distinct.sublist List.filter_sublist⟩

def ofList (ids : List ι) : IdSet ι := ids.foldl insert empty

/-- Two sets are equal when they have the same members; the order of arrival does not count. -/
def same (left right : IdSet ι) : Bool :=
  left.ids.all right.contains && right.ids.all left.contains

@[simp] theorem mem_insert {set : IdSet ι} {id other : ι} :
    other ∈ set.insert id ↔ other ∈ set ∨ other = id := by
  simp only [← mem_ids, insert]
  split
  case isTrue present =>
    constructor
    · exact Or.inl
    · intro given
      rcases given with member | rfl
      · exact member
      · exact present
  case isFalse => simp

@[simp] theorem mem_erase {set : IdSet ι} {id other : ι} :
    other ∈ set.erase id ↔ other ∈ set ∧ other ≠ id := by
  simp [← mem_ids, erase]

@[simp] theorem contains_iff {set : IdSet ι} {id : ι} : set.contains id = true ↔ id ∈ set := by
  simp [contains]

end IdSet

end DocStore
