import DocStore.Json.Basic
import Mathlib.Data.String.Basic

namespace DocStore.Json

variable {key : String} {value : Json} {members : List (String × Json)}

theorem orderedItems_iff {items : List Json} :
    OrderedItems items ↔ ∀ item ∈ items, item.Ordered := by
  induction items with
  | nil => simp [OrderedItems]
  | cons item rest ih => simp [OrderedItems, ih]

theorem orderedMembers_iff : OrderedMembers members ↔ ∀ member ∈ members, member.2.Ordered := by
  induction members with
  | nil => simp [OrderedMembers]
  | cons member rest ih =>
    obtain ⟨key, value⟩ := member
    simp [OrderedMembers, OrderedMember, ih]

theorem depthItems_le_iff {items : List Json} {bound : Nat} :
    depthItems items ≤ bound ↔ ∀ item ∈ items, item.depth ≤ bound := by
  induction items with
  | nil => simp [depthItems]
  | cons item rest ih => simp [depthItems, ih]

theorem depthMembers_le_iff {bound : Nat} :
    depthMembers members ≤ bound ↔ ∀ member ∈ members, member.2.depth ≤ bound := by
  induction members with
  | nil => simp [depthMembers]
  | cons member rest ih =>
    obtain ⟨key, value⟩ := member
    simp [depthMembers, depthMember, ih]

theorem depthItems_reverse (items : List Json) : depthItems items.reverse = depthItems items :=
  eq_of_forall_ge_iff fun bound => by simp [depthItems_le_iff]

theorem depthMembers_reverse (members : List (String × Json)) :
    depthMembers members.reverse = depthMembers members :=
  eq_of_forall_ge_iff fun bound => by simp [depthMembers_le_iff]

/-- Members sorted by key, each key once. -/
def Sorted (members : List (String × Json)) : Prop := (members.map Prod.fst).Pairwise (· < ·)

theorem sorted_cons {member : String × Json} :
    Sorted (member :: members) ↔ (∀ other ∈ members, member.1 < other.1) ∧ Sorted members := by
  simp [Sorted, List.pairwise_map]

theorem mem_insertMember {member : String × Json} (inside : member ∈ insertMember key value members) :
    member = (key, value) ∨ member ∈ members := by
  induction members with
  | nil => simpa [insertMember] using inside
  | cons first rest ih =>
    rw [insertMember] at inside
    split at inside
    case isTrue => simpa using inside
    case isFalse =>
      split at inside
      case isTrue =>
        rcases List.mem_cons.mp inside with same | later
        · exact .inl same
        · exact .inr (List.mem_cons_of_mem _ later)
      case isFalse =>
        rcases List.mem_cons.mp inside with same | later
        · exact .inr (by simp [same])
        · rcases ih later with same | other
          · exact .inl same
          · exact .inr (List.mem_cons_of_mem _ other)

theorem Sorted.insertMember (sorted : Sorted members) : Sorted (insertMember key value members) := by
  induction members with
  | nil => simp [Json.insertMember, Sorted]
  | cons first rest ih =>
    obtain ⟨above, further⟩ := sorted_cons.mp sorted
    rw [Json.insertMember]
    split
    case isTrue before =>
      refine sorted_cons.mpr ⟨?_, sorted⟩
      intro other inside
      rcases List.mem_cons.mp inside with rfl | later
      · exact before
      · exact before.trans (above other later)
    case isFalse notBefore =>
      split
      case isTrue same =>
        refine sorted_cons.mpr ⟨?_, further⟩
        rw [same]
        exact above
      case isFalse differs =>
        refine sorted_cons.mpr ⟨?_, ih further⟩
        intro other inside
        rcases mem_insertMember inside with rfl | later
        · exact lt_of_le_of_ne (not_lt.mp notBefore) (Ne.symm differs)
        · exact above other later

theorem Sorted.eraseMember (sorted : Sorted members) : Sorted (eraseMember key members) :=
  List.Pairwise.sublist (List.filter_sublist.map _) sorted

theorem insertMember_first (above : ∀ member ∈ members, key < member.1) :
    insertMember key value members = (key, value) :: members := by
  cases members with
  | nil => rfl
  | cons first rest => rw [insertMember, if_pos (above first (by simp))]

theorem insertMember_last (above : ∀ member ∈ members, member.1 < key) :
    insertMember key value members = members ++ [(key, value)] := by
  induction members with
  | nil => rfl
  | cons first rest ih =>
    have before := above first (by simp)
    rw [insertMember, if_neg before.asymm, if_neg before.ne',
      ih fun member inside => above member (List.mem_cons_of_mem _ inside)]
    rfl

theorem sortMembers_of_sorted (sorted : Sorted members) : sortMembers members = members := by
  have append (front back : List (String × Json)) (inOrder : Sorted (front ++ back)) :
      back.foldl (fun sorted member => Json.insertMember member.1 member.2 sorted) front =
        front ++ back := by
    induction back generalizing front with
    | nil => simp
    | cons member rest ih =>
      have above : ∀ other ∈ front, other.1 < member.1 := by
        intro other inside
        simp only [Sorted, List.map_append, List.map_cons, List.pairwise_append] at inOrder
        exact inOrder.2.2 other.1 (List.mem_map.mpr ⟨other, inside, rfl⟩) member.1 (by simp)
      rw [List.foldl_cons, insertMember_last above, ih _ (by simpa using inOrder)]
      simp
  exact append [] members sorted

mutual

theorem sorted_of_ordered : ∀ value : Json, value.Ordered → value.sorted = value
  | .null, _ | .boolean _, _ | .number _, _ | .string _, _ => rfl
  | .array items, ordered => by rw [sorted, sortedItems_of_ordered items ordered]
  | .object members, ordered => by
    rw [sorted, sortedMembers_of_ordered members ordered.2, ofMembers,
      sortMembers_of_sorted ordered.1]

theorem sortedItems_of_ordered : ∀ items : List Json, OrderedItems items → sortedItems items = items
  | [], _ => rfl
  | item :: rest, ordered => by
    rw [sortedItems, sorted_of_ordered item ordered.1, sortedItems_of_ordered rest ordered.2]

theorem sortedMembers_of_ordered : ∀ members : List (String × Json), OrderedMembers members →
    sortedMembers members = members
  | [], _ => rfl
  | member :: rest, ordered => by
    rw [sortedMembers, sortedMember_of_ordered member ordered.1,
      sortedMembers_of_ordered rest ordered.2]

theorem sortedMember_of_ordered : ∀ member : String × Json, OrderedMember member →
    sortedMember member = member
  | (_, value), ordered => by rw [sortedMember, sorted_of_ordered value ordered]

end

theorem mem_sortMembers {member : String × Json} (inside : member ∈ sortMembers members) :
    member ∈ members := by
  have gathered (front back : List (String × Json))
      (inside : member ∈ back.foldl
        (fun sorted member => Json.insertMember member.1 member.2 sorted) front) :
      member ∈ front ∨ member ∈ back := by
    induction back generalizing front with
    | nil => exact .inl inside
    | cons first rest ih =>
      rcases ih _ inside with earlier | later
      · rcases mem_insertMember earlier with same | before
        · exact .inr (by simp [same])
        · exact .inl before
      · exact .inr (List.mem_cons_of_mem _ later)
  rcases gathered [] members inside with none | here
  · cases none
  · exact here

theorem sorted_sortMembers (members : List (String × Json)) : Sorted (sortMembers members) := by
  have kept (front back : List (String × Json)) (inOrder : Sorted front) :
      Sorted (back.foldl (fun sorted member => Json.insertMember member.1 member.2 sorted) front) := by
    induction back generalizing front with
    | nil => exact inOrder
    | cons member rest ih => exact ih _ inOrder.insertMember
  exact kept [] members List.Pairwise.nil

mutual

/-- A sorted value is in order and not nested deeper than before. -/
theorem sorted_ordered : ∀ value : Json, value.sorted.Ordered ∧ value.sorted.depth ≤ value.depth
  | .null | .boolean _ | .number _ | .string _ => ⟨trivial, Nat.le_refl _⟩
  | .array items => by
    obtain ⟨ordered, bounded⟩ := sortedItems_ordered items
    exact ⟨ordered, Nat.add_le_add_right bounded 1⟩
  | .object members => by
    obtain ⟨ordered, bounded⟩ := sortedMembers_ordered members
    constructor
    · refine ⟨sorted_sortMembers _, orderedMembers_iff.mpr ?_⟩
      intro member inside
      exact orderedMembers_iff.mp ordered member (mem_sortMembers inside)
    · refine Nat.add_le_add_right (depthMembers_le_iff.mpr ?_) 1
      intro member inside
      exact depthMembers_le_iff.mp bounded member (mem_sortMembers inside)

theorem sortedItems_ordered : ∀ items : List Json,
    OrderedItems (sortedItems items) ∧ depthItems (sortedItems items) ≤ depthItems items
  | [] => ⟨trivial, Nat.le_refl _⟩
  | item :: rest => by
    obtain ⟨ordered, bounded⟩ := sorted_ordered item
    obtain ⟨others, further⟩ := sortedItems_ordered rest
    exact ⟨⟨ordered, others⟩, max_le_max bounded further⟩

theorem sortedMembers_ordered : ∀ members : List (String × Json),
    OrderedMembers (sortedMembers members) ∧
      depthMembers (sortedMembers members) ≤ depthMembers members
  | [] => ⟨trivial, Nat.le_refl _⟩
  | member :: rest => by
    obtain ⟨ordered, bounded⟩ := sortedMember_ordered member
    obtain ⟨others, further⟩ := sortedMembers_ordered rest
    exact ⟨⟨ordered, others⟩, max_le_max bounded further⟩

theorem sortedMember_ordered : ∀ member : String × Json,
    OrderedMember (sortedMember member) ∧ depthMember (sortedMember member) ≤ depthMember member
  | (_, value) => sorted_ordered value

end

end DocStore.Json
