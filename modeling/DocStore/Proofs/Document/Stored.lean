import DocStore.Proofs.Document.Identity
import DocStore.Proofs.Json.Nesting
import Mathlib.Data.List.Induction

namespace DocStore

namespace Json

variable {key other : String} {value : Json} {members : List (String × Json)}

theorem eraseMember_insertMember_of_ne (differs : key ≠ other) (sorted : Sorted members) :
    eraseMember other (insertMember key value members) =
      insertMember key value (eraseMember other members) := by
  induction members with
  | nil => exact eraseMember_cons_of_ne differs
  | cons first rest ih =>
    obtain ⟨name, held⟩ := first
    obtain ⟨above, inOrder⟩ := sorted_cons.mp sorted
    rcases lt_trichotomy key name with before | rfl | after
    · have below : ∀ member ∈ eraseMember other ((name, held) :: rest), key < member.1 := by
        intro member inside
        rcases List.mem_cons.mp (List.mem_of_mem_filter inside) with rfl | later
        · exact before
        · exact before.trans (above member later)
      rw [insertMember_first below, insertMember, if_pos before, eraseMember_cons_of_ne differs]
    · rw [eraseMember_cons_of_ne differs, insertMember, insertMember, if_neg (lt_irrefl key), if_pos rfl,
        if_neg (lt_irrefl key), if_pos rfl, eraseMember_cons_of_ne differs]
    · rw [insertMember, if_neg after.not_gt, if_neg after.ne']
      by_cases same : name = other
      · subst same
        rw [eraseMember_cons_self, eraseMember_cons_self, ih inOrder]
      · rw [eraseMember_cons_of_ne same, eraseMember_cons_of_ne same, insertMember, if_neg after.not_gt,
          if_neg after.ne', ih inOrder]

theorem sortMembers_concat (front : List (String × Json)) (member : String × Json) :
    sortMembers (front ++ [member]) = insertMember member.1 member.2 (sortMembers front) := by
  rw [sortMembers, List.foldl_append]
  rfl

theorem eraseMember_sortMembers (key : String) (members : List (String × Json)) :
    eraseMember key (sortMembers members) = sortMembers (eraseMember key members) := by
  induction members using List.reverseRecOn with
  | nil => rfl
  | append_singleton front member ih =>
    obtain ⟨other, held⟩ := member
    rw [sortMembers_concat, eraseMember_append]
    by_cases same : other = key
    · subst same
      rw [eraseMember_insertMember_self, ih, eraseMember_cons_self, eraseMember_nil, List.append_nil]
    · rw [eraseMember_insertMember_of_ne same (sorted_sortMembers front), ih, eraseMember_cons_of_ne same,
        eraseMember_nil, sortMembers_concat]

/-- Of members with the same key the last one counts. -/
theorem lookup?_sortMembers (key : String) (members : List (String × Json)) :
    lookup? key (sortMembers members) =
      (members.filter fun member => member.1 == key).getLast?.map Prod.snd := by
  induction members using List.reverseRecOn with
  | nil => rfl
  | append_singleton front member ih =>
    obtain ⟨other, held⟩ := member
    rw [sortMembers_concat, List.filter_append]
    by_cases same : other = key
    · subst same
      simp [lookup?_insertMember]
    · simp [lookup?_insertMember_of_ne (Ne.symm same), ih, same]

theorem sortedMembers_eq_map (members : List (String × Json)) :
    sortedMembers members = members.map fun member => (member.1, member.2.sorted) := by
  induction members with
  | nil => rfl
  | cons member rest ih =>
    obtain ⟨key, value⟩ := member
    rw [sortedMembers, ih, sortedMember, List.map_cons]

theorem filter_sortedMembers (chosen : String → Bool) (members : List (String × Json)) :
    (sortedMembers members).filter (fun member => chosen member.1) =
      sortedMembers (members.filter fun member => chosen member.1) := by
  rw [sortedMembers_eq_map, sortedMembers_eq_map, List.filter_map]
  rfl

/-- A member of an object that is read is the last one of its key in the text. -/
theorem lookup?_sorted (key : String) (members : List (String × Json)) :
    lookup? key (sortMembers (sortedMembers members)) =
      (members.filter fun member => member.1 == key).getLast?.map fun member => member.2.sorted := by
  rw [lookup?_sortMembers, filter_sortedMembers (fun name => name == key), sortedMembers_eq_map,
    List.getLast?_map, Option.map_map]
  rfl

theorem eraseMember_sorted (key : String) (members : List (String × Json)) :
    eraseMember key (sortMembers (sortedMembers members)) =
      sortMembers (sortedMembers (eraseMember key members)) := by
  rw [eraseMember_sortMembers, eraseMember, filter_sortedMembers (fun name => name != key)]
  rfl

theorem filter_eq_singleton_iff (distinct : (members.map Prod.fst).Nodup) :
    (members.filter fun member => member.1 == key) = [(key, value)] ↔ (key, value) ∈ members := by
  constructor
  · intro single
    exact List.mem_of_mem_filter (single ▸ List.mem_singleton_self _)
  · intro inside
    obtain ⟨front, back, rfl⟩ := List.append_of_mem inside
    rw [List.map_append, List.map_cons, List.nodup_middle, List.nodup_cons, ← List.map_append] at distinct
    have others : (front ++ back).filter (fun member => member.1 == key) = [] := by
      rw [List.filter_eq_nil_iff]
      intro member here same
      exact distinct.1 (List.mem_map.mpr ⟨member, here, by simpa using same⟩)
    rw [List.filter_append] at others
    obtain ⟨before, after⟩ := List.append_eq_nil_iff.mp others
    rw [List.filter_append, List.filter_cons_of_pos (by simp), before, after]
    rfl

end Json

namespace Document

variable {document : Document} {text id fresh : String} {members : List (String × Json)}

theorem ofJson_sorted
    (single : (members.filter fun member => member.1 == "id") = [("id", .string id)]) (fresh : String) :
    ofJson fresh (Json.object members).sorted =
      .ok ⟨id, Json.sortMembers (Json.sortedMembers (Json.eraseMember "id" members))⟩ := by
  have held : Json.lookup? "id" (Json.sortMembers (Json.sortedMembers members)) =
      some (.string id) := by
    rw [Json.lookup?_sorted, single]
    rfl
  rw [Json.sorted, Json.ofMembers, ofJson_of_namesText held (.string id), Json.eraseMember_sorted]

/-- An object is a stored document if it has one `id`, a string. The document is then the one that the
object makes once it is sorted. -/
theorem ofStored?_eq_some_iff : ofStored? (.object members) = some document ↔
    (members.filter fun member => member.1 == "id") = [("id", .string document.id)] ∧
      ∀ fresh, ofJson fresh (Json.object members).sorted = .ok document := by
  constructor
  · intro accepted
    rw [ofStored?] at accepted
    split at accepted
    case h_1 key id single =>
      cases accepted
      have here : (key, Json.string id) ∈ members.filter fun member => member.1 == "id" := by simp [single]
      obtain rfl : key = "id" := by simpa using List.of_mem_filter here
      exact ⟨single, ofJson_sorted single⟩
    case h_2 => cases accepted
  · rintro ⟨single, makes⟩
    have same := (ofJson_sorted single "").symm.trans (makes "")
    rw [ofStored?, single]
    exact congrArg some (Except.ok.inj same)

theorem decode?_of_denotes {value : Json} (denotes : Json.Denotes text value)
    (shallow : value.depth ≤ Json.nestingLimit) :
    (Codec.record.decode? text : Option Document) = ofStored? value := by
  change (Json.readRaw? Json.nestingLimit text).bind ofStored? = _
  rw [Json.readRaw?_eq_some_iff.mpr ⟨denotes, shallow⟩, Option.bind_some]

theorem anonymous_of_ofJson {value : Json} (accepted : ofJson fresh value = .ok document) :
    ∀ member ∈ document.body, member.1 ≠ "id" := by
  cases value with
  | object members =>
    rw [body_of_ofJson accepted]
    exact Json.absent_eraseMember "id" members
  | _ => cases accepted

theorem anonymous_of_decode? (accepted : Codec.record.decode? text = some document) :
    ∀ member ∈ document.body, member.1 ≠ "id" := by
  obtain ⟨value, _, stored⟩ := Option.bind_eq_some_iff.mp accepted
  cases value with
  | object members => exact anonymous_of_ofJson ((ofStored?_eq_some_iff.mp stored).2 "")
  | _ => cases stored

/-- A document made of an object reads back from what is stored of it, as far as numbers do from theirs.
Any stored object whose keys differ reads as a document if and only if it has a string for `id`, and then
as the document that its parsed text makes. Among the other members of a document there is no `id`. -/
theorem stored_reading_exact :
    (∀ fresh value document, ofJson fresh value = .ok document → value.Ordered →
      value.depth ≤ Json.nestingLimit → value.Faithful → Codec.record.Keeps document) ∧
    (∀ text members, Json.Denotes text (.object members) →
      (Json.object members).depth ≤ Json.nestingLimit → (members.map Prod.fst).Nodup →
      ∃ value, Json.read? text = some value ∧
        ((∃ document : Document, Codec.record.decode? text = some document) ↔
          ∃ id, ("id", .string id) ∈ members) ∧
        ∀ document, Codec.record.decode? text = some document →
          ∀ fresh, ofJson fresh value = .ok document) ∧
    (∀ fresh value document, ofJson fresh value = .ok document →
      ∀ member ∈ document.body, member.1 ≠ "id") ∧
    ∀ (text : String) (document : Document), Codec.record.decode? text = some document →
      ∀ member ∈ document.body, member.1 ≠ "id" := by
  refine ⟨?_, ?_, fun fresh value document => anonymous_of_ofJson,
    fun text document => anonymous_of_decode?⟩
  · intro fresh value document accepted ordered shallow faithful
    exact (wellFormed_of_ofJson ordered shallow faithful accepted).keeps
  · intro text members denotes shallow distinct
    have reads : Json.read? text = some (Json.object members).sorted := by
      rw [Json.read?, Json.readRaw?_eq_some_iff.mpr ⟨denotes, shallow⟩, Option.map_some]
    refine ⟨_, reads, ?_⟩
    rw [decode?_of_denotes denotes shallow]
    simp only [ofStored?_eq_some_iff, Json.filter_eq_singleton_iff distinct]
    refine ⟨⟨?_, ?_⟩, fun document accepted => accepted.2⟩
    · rintro ⟨document, inside, _⟩
      exact ⟨document.id, inside⟩
    · rintro ⟨id, inside⟩
      exact ⟨⟨id, _⟩, inside, ofJson_sorted ((Json.filter_eq_singleton_iff distinct).mpr inside)⟩

theorem stored_reading_exact_unsorted :
    Json.Denotes "\x7b\"n\":[1],\"id\":\"a\"\x7d"
        (.object [("n", .array [.number (.integer 1)]), ("id", .string "a")]) ∧
      Codec.record.decode? "\x7b\"n\":[1],\"id\":\"a\"\x7d" =
        some (⟨"a", [("n", .array [.number (.integer 1)])]⟩ : Document) ∧
      Codec.record.Keeps (⟨"a", [("n", .array [.number (.integer 1)])]⟩ : Document) := by
  obtain ⟨keeps, decodes, _⟩ := stored_reading_exact
  have denotes : Json.Denotes "\x7b\"n\":[1],\"id\":\"a\"\x7d"
      (.object [("n", .array [.number (.integer 1)]), ("id", .string "a")]) :=
    ⟨Json.nestingLimit, by decide +kernel⟩
  obtain ⟨value, reads, succeeds, makes⟩ := decodes _ _ denotes (by decide +kernel) (by decide +kernel)
  obtain ⟨ordered, shallow⟩ := Json.read?_ordered reads
  have parsed : Json.read? "\x7b\"n\":[1],\"id\":\"a\"\x7d" =
      some (.object [("id", .string "a"), ("n", .array [.number (.integer 1)])]) := by decide +kernel
  obtain rfl := Option.some.inj (reads.symm.trans parsed)
  obtain ⟨document, decoded⟩ := succeeds.mpr ⟨"a", by simp⟩
  have accepted := makes document decoded "fresh"
  obtain rfl : document = ⟨"a", [("n", .array [.number (.integer 1)])]⟩ :=
    Except.ok.inj (accepted.symm.trans (by decide +kernel))
  have faithful : (Json.number (.integer 1)).Faithful := Number.ofChars?_integer (by decide) (by decide)
  exact ⟨denotes, decoded, keeps "fresh" _ _ accepted ordered shallow
    ⟨trivial, ⟨faithful, trivial⟩, trivial⟩⟩

end Document

end DocStore
