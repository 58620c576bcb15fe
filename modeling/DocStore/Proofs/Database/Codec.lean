import DocStore.Database.Codec
import DocStore.Proofs.Except
import DocStore.Proofs.Json.Read

namespace DocStore

/-- Identifiers that can be told from each other by their written form. -/
class LawfulIdentifier (ι : Type) [Identifier ι] : Prop where
  ofJson_toJson : ∀ id : ι, Identifier.ofJson (Identifier.toJson id) = .ok id
  faithful : ∀ id : ι, (Identifier.toJson id).Faithful
  ordered : ∀ id : ι, (Identifier.toJson id).Ordered
  shallow : ∀ id : ι, (Identifier.toJson id).depth < Json.nestingLimit

instance : LawfulIdentifier String where
  ofJson_toJson _ := rfl
  faithful _ := trivial
  ordered _ := trivial
  shallow _ := Nat.succ_pos 126

instance : LawfulIdentifier UInt32 where
  ofJson_toJson id := by
    have bounds := id.toNat_lt
    have inside : (0 : Int) ≤ id.toNat ∧ (id.toNat : Int) ≤ 2 ^ 32 - 1 := by omega
    simp only [Identifier.ofJson, Identifier.toJson, Json.integerWithin]
    rw [if_pos inside]
    simp [bind, Except.bind, pure, Except.pure]
  faithful id := Number.ofChars?_integer (by omega) (by have := id.toNat_lt; omega)
  ordered _ := trivial
  shallow _ := Nat.succ_pos 126

instance : LawfulIdentifier Int64 where
  ofJson_toJson id := by
    have inside : -2 ^ 63 ≤ id.toInt ∧ id.toInt ≤ 2 ^ 63 - 1 :=
      ⟨id.le_toInt, by have := id.toInt_lt; omega⟩
    simp only [Identifier.ofJson, Identifier.toJson, Json.integerWithin]
    rw [if_pos inside]
    simp [bind, Except.bind, pure, Except.pure]
  faithful id := Number.ofChars?_integer id.le_toInt (by have := id.toInt_lt; omega)
  ordered _ := trivial
  shallow _ := Nat.succ_pos 126

namespace IdSet

variable {ι : Type} [DecidableEq ι]

omit [DecidableEq ι] in
theorem ids_injective {set other : IdSet ι} (same : set.ids = other.ids) : set = other := by
  cases set
  cases other
  cases same
  rfl

theorem ofList_ids (set : IdSet ι) : ofList set.ids = set := by
  have gathered (first : IdSet ι) (ids : List ι) (distinct : (first.ids ++ ids).Nodup) :
      (ids.foldl insert first).ids = first.ids ++ ids := by
    induction ids generalizing first with
    | nil => simp
    | cons id rest ih =>
      have absent : id ∉ first.ids := fun present =>
        (List.nodup_append.mp distinct).2.2 id present id (by simp) rfl
      have grown : (first.insert id).ids = first.ids ++ [id] := by simp [insert, absent]
      rw [List.foldl_cons, ih _ (by rw [grown]; simpa using distinct), grown]
      simp
  exact ids_injective (gathered empty set.ids set.distinct)

variable [Identifier ι]

theorem ofJson_array_iff {items : List Json} {set : IdSet ι} :
    IdSet.ofJson (.array items) = .ok set ↔
      ∃ ids, List.Forall₂ (fun item id => Identifier.ofJson item = .ok id) items ids ∧
        ofList ids = set := by
  simp only [ofJson, bind_eq_ok_iff, mapM_eq_ok_iff, pure, Except.pure, Except.ok.injEq]

theorem ofJson_toJson [LawfulIdentifier ι] (set : IdSet ι) : IdSet.ofJson set.toJson = .ok set := by
  refine ofJson_array_iff.mpr ⟨set.ids, ?_, set.ofList_ids⟩
  rw [List.forall₂_map_left_iff, List.forall₂_same]
  exact fun id _ => LawfulIdentifier.ofJson_toJson id

end IdSet

namespace Codec

variable {α ι : Type}

/-- The value is written, and what is written reads back. -/
def Keeps (codec : Codec α) (value : α) : Prop :=
  ∃ text, codec.encode value = .ok text ∧ codec.decode? text = some value

/-- What is written of the value, if it can be written, reads back. -/
def ReadsBack (codec : Codec α) (value : α) : Prop :=
  ∀ text, codec.encode value = .ok text → codec.decode? text = some value

theorem Keeps.readsBack {codec : Codec α} {value : α} (keeps : codec.Keeps value) :
    codec.ReadsBack value := by
  obtain ⟨written, encoded, decoded⟩ := keeps
  intro text other
  rw [encoded] at other
  cases other
  exact decoded

/-- Values whose numbers read back are kept up to the nesting that is read. -/
theorem json_keeps {value : Json} (faithful : value.Faithful) (fits : value.depth ≤ Json.nestingLimit)
    (ordered : value.Ordered) : Codec.json.Keeps value :=
  ⟨_, rfl, Json.read?_compact faithful fits ordered⟩

variable [Identifier ι] [LawfulIdentifier ι]

theorem identifier_keeps (id : ι) : Codec.identifier.Keeps id := by
  refine ⟨_, rfl, ?_⟩
  have reads : Json.read? (Identifier.toJson id).compact = some (Identifier.toJson id) :=
    Json.read?_compact (LawfulIdentifier.faithful id) (LawfulIdentifier.shallow id).le
      (LawfulIdentifier.ordered id)
  simp only [identifier, reads, Option.bind_eq_bind, Option.bind_some,
    LawfulIdentifier.ofJson_toJson]
  rfl

omit [Identifier ι] [LawfulIdentifier ι] in
theorem indexValue_keeps (value : IndexValue) : Codec.indexValue.Keeps value := by
  refine ⟨_, rfl, ?_⟩
  have faithful : value.toJson.Faithful := by cases value <;> trivial
  have flat : value.toJson.depth = 0 := by cases value <;> rfl
  have ordered : value.toJson.Ordered := by cases value <;> trivial
  have reads : Json.read? value.toJson.compact = some value.toJson :=
    Json.read?_compact faithful (by rw [flat]; exact Nat.zero_le _) ordered
  simp only [indexValue, reads]
  cases value <;> rfl

theorem idSet_keeps [DecidableEq ι] (set : IdSet ι) : Codec.idSet.Keeps set := by
  refine ⟨_, rfl, ?_⟩
  have faithful : set.toJson.Faithful := Json.faithfulItems_iff.mpr <| by
    simpa using fun id _ => LawfulIdentifier.faithful id
  have ordered : set.toJson.Ordered := Json.orderedItems_iff.mpr <| by
    simpa using fun id _ => LawfulIdentifier.ordered id
  have shallow : set.toJson.depth ≤ Json.nestingLimit := by
    refine Nat.succ_le_succ (Json.depthItems_le_iff.mpr ?_)
    intro item member
    obtain ⟨id, _, rfl⟩ := List.mem_map.mp member
    exact Nat.le_of_lt_succ (LawfulIdentifier.shallow id)
  simp only [idSet, Json.read?_compact faithful shallow ordered, Option.bind_eq_bind,
    Option.bind_some, set.ofJson_toJson]
  rfl

end Codec

end DocStore
