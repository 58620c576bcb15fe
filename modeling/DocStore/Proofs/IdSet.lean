import DocStore.Proofs.Database.Codec
import Mathlib.Data.Finset.Card

namespace DocStore

namespace IdSet

variable {ι : Type}

def toFinset (set : IdSet ι) : Finset ι := ⟨set.ids, Multiset.coe_nodup.mpr set.distinct⟩

@[simp] theorem mem_toFinset {set : IdSet ι} {id : ι} : id ∈ set.toFinset ↔ id ∈ set := Iff.rfl

theorem card_toFinset (set : IdSet ι) : set.toFinset.card = set.size := rfl

@[simp] theorem toFinset_empty : (empty : IdSet ι).toFinset = ∅ := rfl

@[simp] theorem toFinset_single (id : ι) : (single id).toFinset = {id} := rfl

variable [DecidableEq ι]

@[simp] theorem toFinset_insert (set : IdSet ι) (id : ι) :
    (set.insert id).toFinset = Insert.insert id set.toFinset := by
  ext other
  simp [or_comm]

@[simp] theorem toFinset_erase (set : IdSet ι) (id : ι) :
    (set.erase id).toFinset = set.toFinset.erase id := by
  ext other
  simp [and_comm]

@[simp] theorem toFinset_ofList (ids : List ι) : (ofList ids).toFinset = ids.toFinset := by
  have gathered (first : IdSet ι) :
      (ids.foldl insert first).toFinset = first.toFinset ∪ ids.toFinset := by
    induction ids generalizing first with
    | nil => simp
    | cons id rest ih => rw [List.foldl_cons, ih, toFinset_insert, List.toFinset_cons,
        Finset.insert_union, Finset.union_insert]
  rw [ofList, gathered, toFinset_empty, Finset.empty_union]

theorem contains_iff_mem_toFinset {set : IdSet ι} {id : ι} :
    set.contains id = true ↔ id ∈ set.toFinset := contains_iff

/-- Going through a set meets each member once. -/
theorem count_ids (set : IdSet ι) (id : ι) : set.ids.count id = if id ∈ set.toFinset then 1 else 0 :=
  set.distinct.count

theorem same_iff {left right : IdSet ι} : left.same right = true ↔ left.toFinset = right.toFinset := by
  rw [same, Bool.and_eq_true, List.all_eq_true, List.all_eq_true, Finset.Subset.antisymm_iff]
  simp only [contains_iff_mem_toFinset]
  exact Iff.rfl

theorem toFinset_eq_iff_contains {left right : IdSet ι} :
    left.toFinset = right.toFinset ↔ ∀ id, left.contains id = right.contains id := by
  simp only [Finset.ext_iff, ← contains_iff_mem_toFinset, ← Bool.eq_iff_iff]

/-- How a set begins. -/
inductive Origin (ι : Type) where
  | empty
  | single (id : ι)
  | collected (ids : List ι)
  | read (items : List Json)

/-- A change of a set. -/
inductive Edit (ι : Type) where
  | insert (id : ι)
  | erase (id : ι)

/-- How a set came about. -/
structure Making (ι : Type) where
  origin : Origin ι
  edits : List (Edit ι)

namespace Origin

variable [Identifier ι]

def set : Origin ι → Except ReadError (IdSet ι)
  | .empty => .ok IdSet.empty
  | .single id => .ok (IdSet.single id)
  | .collected ids => .ok (ofList ids)
  | .read items => IdSet.ofJson (.array items)

/-- The ids that the origin names, of an array those that its items are read as. -/
def described : Origin ι → Finset ι
  | .empty => ∅
  | .single id => {id}
  | .collected ids => ids.toFinset
  | .read items => (items.filterMap fun item => (Identifier.ofJson item).toOption).toFinset

omit [DecidableEq ι] in
private theorem filterMap_of_reads {items : List Json} {ids : List ι}
    (reads : List.Forall₂ (fun item id => Identifier.ofJson item = .ok id) items ids) :
    (items.filterMap fun item => (Identifier.ofJson item).toOption) = ids := by
  induction reads with
  | nil => rfl
  | cons here _ ih => rw [List.filterMap_cons, here, ih]; rfl

theorem toFinset_set {origin : Origin ι} {set : IdSet ι} (started : origin.set = .ok set) :
    set.toFinset = origin.described := by
  cases origin with
  | empty =>
    cases started
    exact toFinset_empty
  | single id =>
    cases started
    exact toFinset_single id
  | collected ids =>
    cases started
    exact toFinset_ofList ids
  | read items =>
    obtain ⟨ids, reads, rfl⟩ := ofJson_array_iff.mp started
    rw [toFinset_ofList, described, filterMap_of_reads reads]

theorem exists_set_iff {origin : Origin ι} :
    (∃ set, origin.set = .ok set) ↔
      ∀ items, origin = .read items → ∀ item ∈ items, ∃ id : ι, Identifier.ofJson item = .ok id := by
  cases origin with
  | read items =>
    simp only [set, ofJson_array_iff, read.injEq, forall_eq', ← exists_forall₂_iff]
    exact ⟨fun ⟨_, ids, reads, _⟩ => ⟨ids, reads⟩, fun ⟨ids, reads⟩ => ⟨_, ids, reads, rfl⟩⟩
  | _ => exact ⟨nofun, fun _ => ⟨_, rfl⟩⟩

end Origin

namespace Edit

def applied (set : IdSet ι) : Edit ι → IdSet ι
  | .insert id => set.insert id
  | .erase id => set.erase id

def described (members : Finset ι) : Edit ι → Finset ι
  | .insert id => Insert.insert id members
  | .erase id => members.erase id

theorem toFinset_applied (set : IdSet ι) (edit : Edit ι) :
    (applied set edit).toFinset = described set.toFinset edit := by
  cases edit with
  | insert id => exact set.toFinset_insert id
  | erase id => exact set.toFinset_erase id

theorem toFinset_foldl (set : IdSet ι) (edits : List (Edit ι)) :
    (edits.foldl applied set).toFinset = edits.foldl described set.toFinset := by
  induction edits generalizing set with
  | nil => rfl
  | cons edit rest ih => rw [List.foldl_cons, ih, toFinset_applied, List.foldl_cons]

end Edit

namespace Making

variable [Identifier ι]

def set (making : Making ι) : Except ReadError (IdSet ι) :=
  making.origin.set.map (making.edits.foldl Edit.applied)

/-- The ids that the origin and the edits leave. -/
def described (making : Making ι) : Finset ι :=
  making.edits.foldl Edit.described making.origin.described

theorem set_eq_ok_iff {making : Making ι} {set : IdSet ι} :
    making.set = .ok set ↔
      ∃ first, making.origin.set = .ok first ∧ making.edits.foldl Edit.applied first = set := by
  rw [Making.set]
  cases making.origin.set with
  | error cause => exact ⟨nofun, nofun⟩
  | ok first => simp [Except.map]

theorem toFinset_set {making : Making ι} {set : IdSet ι} (made : making.set = .ok set) :
    set.toFinset = making.described := by
  obtain ⟨first, started, rfl⟩ := set_eq_ok_iff.mp made
  rw [Edit.toFinset_foldl, Origin.toFinset_set started, described]

theorem exists_set_iff {making : Making ι} :
    (∃ set, making.set = .ok set) ↔ ∃ first, making.origin.set = .ok first := by
  simp only [set_eq_ok_iff]
  exact ⟨fun ⟨_, first, started, _⟩ => ⟨first, started⟩, fun ⟨first, started⟩ => ⟨_, first, started, rfl⟩⟩

/-- A set comes about unless it is to be read from an array with an item that is no identifier. It then has
exactly the members that its making describes, counts them and meets each of them once. Two sets are equal
if and only if they have the same members, however each was made. What is written of a set, its members in
any order, reads back as an equal set. -/
theorem set_exact (making : Making ι) :
    ((∃ set, making.set = .ok set) ↔
      ∀ items, making.origin = .read items → ∀ item ∈ items, ∃ id : ι, Identifier.ofJson item = .ok id) ∧
    ∀ set, making.set = .ok set →
      (∀ id, set.contains id = true ↔ id ∈ making.described) ∧
      set.size = making.described.card ∧
      (∀ id, set.ids.count id = if id ∈ making.described then 1 else 0) ∧
      (∀ (other : Making ι) (second : IdSet ι), other.set = .ok second →
        (set.same second = true ↔ ∀ id, set.contains id = second.contains id) ∧
        (set.same second = true ↔ making.described = other.described)) ∧
      ∀ [LawfulIdentifier ι] (arranged : IdSet ι), set.same arranged = true →
        ∃ text again, IdSet.ofJson arranged.toJson = .ok again ∧
          Codec.idSet.encode arranged = .ok text ∧ Codec.idSet.decode? text = some again ∧
          set.same again = true := by
  refine ⟨exists_set_iff.trans Origin.exists_set_iff, ?_⟩
  intro set made
  have members := toFinset_set made
  rw [← members]
  refine ⟨fun id => contains_iff_mem_toFinset, set.card_toFinset.symm, set.count_ids, ?_, ?_⟩
  · intro other second alsoMade
    rw [← toFinset_set alsoMade]
    exact ⟨same_iff.trans toFinset_eq_iff_contains, same_iff⟩
  · intro _ arranged same
    obtain ⟨text, written, read⟩ := Codec.idSet_keeps arranged
    exact ⟨text, arranged, arranged.ofJson_toJson, written, read, same⟩

/-- An id is read twice, and one that is not there is erased. -/
def repeated : Making UInt32 where
  origin := .read [.number (.integer 7), .number (.integer 7), .number (.integer 8)]
  edits := [.insert 9, .erase 7, .insert 8, .erase 5]

theorem set_exact_repeated :
    ∃ set again, repeated.set = .ok set ∧
      set.contains 9 = true ∧ set.contains 7 = false ∧ set.size = 2 ∧ set.ids.count 8 = 1 ∧
      Codec.idSet.decode? "[9,8]" = some again ∧ set.same again = true := by
  obtain ⟨comes, exact⟩ := set_exact repeated
  have legible : ∀ items, repeated.origin = .read items →
      ∀ item ∈ items, ∃ id : UInt32, Identifier.ofJson item = .ok id := by
    rintro _ ⟨⟩
    simp only [List.forall_mem_cons]
    exact ⟨⟨7, rfl⟩, ⟨7, rfl⟩, ⟨8, rfl⟩, nofun⟩
  obtain ⟨set, made⟩ := comes.mpr legible
  obtain ⟨contains, size, count, equal, written⟩ := exact set made
  have same : set.same (ofList [9, 8]) = true :=
    (equal ⟨.collected [9, 8], []⟩ (ofList [9, 8]) rfl).2.mpr (by decide +kernel)
  obtain ⟨text, again, _, encoded, decoded, alike⟩ := written (ofList [9, 8]) same
  have spelled : Codec.idSet.encode (ofList [9, 8] : IdSet UInt32) = .ok "[9,8]" := by decide +kernel
  obtain rfl := Except.ok.inj (spelled.symm.trans encoded)
  refine ⟨set, again, made, (contains 9).mpr (by decide +kernel), ?_, ?_, ?_, decoded, alike⟩
  · rw [Bool.eq_false_iff, ne_eq, contains 7]
    decide +kernel
  · rw [size]
    decide +kernel
  · rw [count 8]
    decide +kernel

end Making

end IdSet

end DocStore
