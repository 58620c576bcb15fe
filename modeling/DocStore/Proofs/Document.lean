import DocStore.Document
import DocStore.Proofs.Database.Codec

namespace DocStore

namespace Json

variable {key : String} {value : Json} {members : List (String × Json)}

theorem lookup?_insertMember (key : String) (value : Json) (members : List (String × Json)) :
    lookup? key (insertMember key value members) = some value := by
  induction members with
  | nil => simp [insertMember, lookup?]
  | cons first rest ih =>
    obtain ⟨other, held⟩ := first
    rw [insertMember]
    split
    case isTrue => simp [lookup?]
    case isFalse =>
    split
    case isTrue => simp [lookup?]
    case isFalse differs =>
      have apart : (other == key) = false := by simpa using Ne.symm differs
      simpa [lookup?, apart] using ih

theorem insertMember_of_absent (absent : ∀ member ∈ members, member.1 ≠ key) :
    ∃ front back, members = front ++ back ∧
      insertMember key value members = front ++ (key, value) :: back := by
  induction members with
  | nil => exact ⟨[], [], rfl, rfl⟩
  | cons first rest ih =>
    obtain ⟨other, held⟩ := first
    have differs : key ≠ other := (absent (other, held) (by simp)).symm
    rw [insertMember]
    split
    case isTrue => exact ⟨[], (other, held) :: rest, rfl, rfl⟩
    case isFalse =>
    obtain ⟨front, back, same, put⟩ := ih fun member here => absent member (by simp [here])
    rw [put, same]
    exact ⟨(other, held) :: front, back, rfl, rfl⟩

theorem filter_insertMember (absent : ∀ member ∈ members, member.1 ≠ key) :
    (insertMember key value members).filter (fun member => member.1 == key) = [(key, value)] := by
  obtain ⟨front, back, same, put⟩ := insertMember_of_absent absent
  have others : ∀ row : List (String × Json), (∀ member ∈ row, member ∈ members) →
      row.filter (fun member => member.1 == key) = [] := by
    intro row inside
    rw [List.filter_eq_nil_iff]
    intro member here
    simpa using absent member (inside member here)
  rw [put, List.filter_append, others front (by simp_all), List.filter_cons_of_pos (by simp),
    others back (by simp_all)]
  rfl

theorem eraseMember_nil (key : String) : eraseMember key [] = [] := rfl

theorem eraseMember_cons_self (key : String) (value : Json) (members : List (String × Json)) :
    eraseMember key ((key, value) :: members) = eraseMember key members :=
  List.filter_cons_of_neg (by simp)

theorem eraseMember_cons_of_ne {member : String × Json} (differs : member.1 ≠ key) :
    eraseMember key (member :: members) = member :: eraseMember key members :=
  List.filter_cons_of_pos (by simpa using differs)

theorem eraseMember_append (key : String) (front back : List (String × Json)) :
    eraseMember key (front ++ back) = eraseMember key front ++ eraseMember key back :=
  List.filter_append ..

theorem absent_eraseMember (key : String) (members : List (String × Json)) :
    ∀ member ∈ eraseMember key members, member.1 ≠ key := by
  intro member inside
  rw [eraseMember, List.mem_filter] at inside
  simpa using inside.2

theorem eraseMember_of_absent (absent : ∀ member ∈ members, member.1 ≠ key) :
    eraseMember key members = members := by
  rw [eraseMember, List.filter_eq_self]
  intro member inside
  simpa using absent member inside

theorem eraseMember_insertMember_self (key : String) (value : Json) (members : List (String × Json)) :
    eraseMember key (insertMember key value members) = eraseMember key members := by
  induction members with
  | nil => exact eraseMember_cons_self ..
  | cons first rest ih =>
    obtain ⟨other, held⟩ := first
    rw [insertMember]
    split
    case isTrue => exact eraseMember_cons_self ..
    case isFalse =>
    split
    case isTrue same =>
      subst same
      rw [eraseMember_cons_self, eraseMember_cons_self]
    case isFalse differs =>
      have apart : other ≠ key := Ne.symm differs
      rw [eraseMember_cons_of_ne apart, eraseMember_cons_of_ne apart, ih]

theorem eraseMember_insertMember (absent : ∀ member ∈ members, member.1 ≠ key) :
    eraseMember key (insertMember key value members) = members := by
  rw [eraseMember_insertMember_self, eraseMember_of_absent absent]

end Json

namespace Document

variable {document : Document}

theorem project_id (document : Document) :
    IndexValue.project document.toJson ⟨["id"]⟩ = .text document.id := by
  have found : Path.resolve? ⟨["id"]⟩ document.toJson = some (.string document.id) := by
    rw [Path.resolve?, List.foldlM_cons, toJson, Json.get?, Json.lookup?_insertMember]
    rfl
  rw [IndexValue.project, found]
  rfl

/-- What the body of a document satisfies once it has been read: it can be written and read again. -/
structure WellFormed (document : Document) : Prop where
  sorted : Json.Sorted document.body
  anonymous : ∀ member ∈ document.body, member.1 ≠ "id"
  ordered : ∀ member ∈ document.body, member.2.Ordered
  faithful : ∀ member ∈ document.body, member.2.Faithful
  shallow : ∀ member ∈ document.body, member.2.depth < Json.nestingLimit

theorem WellFormed.keeps (formed : document.WellFormed) : Codec.record.Keeps document := by
  have faithful : document.toJson.Faithful := by
    refine Json.faithfulMembers_iff.mpr ?_
    intro member inside
    rcases Json.mem_insertMember inside with rfl | before
    · exact trivial
    · exact formed.faithful member before
  have shallow : document.toJson.depth ≤ Json.nestingLimit := by
    have inner : Json.depthMembers (Json.insertMember "id" (.string document.id) document.body) ≤
        Json.nestingLimit - 1 := by
      rw [Json.depthMembers_le_iff]
      intro member inside
      rcases Json.mem_insertMember inside with rfl | before
      · exact Nat.zero_le _
      · exact Nat.le_sub_one_of_lt (formed.shallow member before)
    rw [toJson, Json.depth]
    exact Nat.add_le_of_le_sub (Nat.succ_pos 126) inner
  have reads : ofStored? document.toJson = some document := by
    rw [toJson, ofStored?, Json.filter_insertMember formed.anonymous]
    rw [Json.eraseMember_insertMember formed.anonymous,
      Json.sortedMembers_of_ordered _ (Json.orderedMembers_iff.mpr formed.ordered),
      Json.sortMembers_of_sorted formed.sorted]
  refine ⟨document.toJson.compact, rfl, ?_⟩
  change (Json.readRaw? Json.nestingLimit document.toJson.compact).bind ofStored? = some document
  rw [Json.readRaw?_compact faithful shallow]
  exact reads

theorem body_of_ofJson {fresh : String} {members : List (String × Json)}
    (accepted : ofJson fresh (.object members) = .ok document) :
    document.body = Json.eraseMember "id" members := by
  rw [ofJson] at accepted
  split at accepted <;> cases accepted <;> rfl

/-- A document made of a value that was read from a text is well formed. -/
theorem wellFormed_of_ofJson {fresh : String} {value : Json} (ordered : value.Ordered)
    (shallow : value.depth ≤ Json.nestingLimit) (faithful : value.Faithful)
    (accepted : ofJson fresh value = .ok document) : document.WellFormed := by
  cases value with
  | object members =>
    have body : document.body = Json.eraseMember "id" members := body_of_ofJson accepted
    have inside : ∀ member ∈ document.body, member ∈ members ∧ member.1 ≠ "id" := by
      intro member here
      rw [body] at here
      exact ⟨List.mem_of_mem_filter here, Json.absent_eraseMember "id" members member here⟩
    obtain ⟨sorted, ordered⟩ := ordered
    have deep : Json.depthMembers members + 1 ≤ Json.nestingLimit := shallow
    constructor
    · rw [body]
      exact Json.Sorted.eraseMember sorted
    · exact fun member here => (inside member here).2
    · exact fun member here => Json.orderedMembers_iff.mp ordered member (inside member here).1
    · exact fun member here => Json.faithfulMembers_iff.mp faithful member (inside member here).1
    · intro member here
      have bounded := Json.depthMembers_le_iff.mp (Nat.le_refl _) member (inside member here).1
      exact Nat.lt_of_le_of_lt bounded deep
  | _ => cases accepted

end Document

end DocStore
