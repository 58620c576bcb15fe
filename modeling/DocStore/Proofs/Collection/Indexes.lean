import DocStore.Collection.Basic
import Mathlib.Data.List.Forall2

namespace DocStore

namespace Indexes

variable {σ τ α ι : Type}

theorem isSome_get?_iff {indexes : Indexes σ τ ι} {name : IndexName} :
    (indexes.get? name).isSome = true ↔ name ∈ indexes.names := by
  simp [get?, names]

theorem extend_pure (storeOf : IndexName → LeafStore σ τ IndexValue (IdSet ι))
    {opened : Indexes σ τ ι} {fields : List (IndexedField α)} (world : σ)
    (distinct : (opened.names ++ fields.map IndexedField.name).Nodup) :
    extend (fun name => pure (storeOf name)) opened fields world =
      (.ok ⟨opened.stores ++ fields.map fun field => (field.name, storeOf field.name)⟩, world) := by
  induction fields generalizing opened with
  | nil => simp [extend]
  | cons field rest ih =>
    have free : field.name ∉ opened.names := by
      intro taken
      exact (List.nodup_append.mp distinct).2.2 _ taken _ (by simp) rfl
    have further : ((opened.add field.name (storeOf field.name)).names ++
        rest.map IndexedField.name).Nodup := by
      simpa [add, names] using distinct
    rw [extend, if_neg free]
    refine (Action.bind_of_ok (Action.mapError_of_ok (Action.pure_apply _ _))).trans ?_
    rw [ih further]
    simp [add]

/-- Opened stores go by the names of the fields, in their order. -/
theorem extend_eq_ok {factory : IndexName → StoreAction σ (LeafStore σ τ IndexValue (IdSet ι))}
    {opened indexes : Indexes σ τ ι} {fields : List (IndexedField α)} {world next : σ}
    (success : extend factory opened fields world = (.ok indexes, next)) :
    ∃ stores, indexes.stores = opened.stores ++ stores ∧
      List.Forall₂ (fun field entry => entry.1 = field.name ∧
        ∃ before after, factory field.name before = (.ok entry.2, after)) fields stores := by
  induction fields generalizing opened world with
  | nil =>
    cases success
    exact ⟨[], by simp, .nil⟩
  | cons field rest ih =>
    rw [extend] at success
    split at success
    case isTrue => cases success
    case isFalse =>
      obtain ⟨store, middle, created, further⟩ := Action.bind_eq_ok success
      obtain ⟨stores, listed, named⟩ := ih further
      refine ⟨(field.name, store) :: stores, by simp [listed, add], .cons ⟨rfl, ?_⟩ named⟩
      exact ⟨world, middle, Action.mapError_eq_ok created⟩

theorem names_of_extend {factory : IndexName → StoreAction σ (LeafStore σ τ IndexValue (IdSet ι))}
    {opened indexes : Indexes σ τ ι} {fields : List (IndexedField α)} {world next : σ}
    (success : extend factory opened fields world = (.ok indexes, next)) :
    indexes.names = opened.names ++ fields.map IndexedField.name := by
  obtain ⟨stores, listed, named⟩ := extend_eq_ok success
  rw [names, listed, List.map_append, names, List.append_cancel_left_eq]
  clear listed success
  induction named with
  | nil => rfl
  | cons first _ ih => rw [List.map_cons, List.map_cons, ih, first.1]

theorem extend_stores {factory : IndexName → StoreAction σ (LeafStore σ τ IndexValue (IdSet ι))}
    (storeOf : IndexName → LeafStore σ τ IndexValue (IdSet ι)) {opened indexes : Indexes σ τ ι}
    {fields : List (IndexedField α)} {world next : σ}
    (gives : ∀ name before store after, factory name before = (.ok store, after) → store = storeOf name)
    (success : extend factory opened fields world = (.ok indexes, next)) :
    indexes.stores = opened.stores ++ fields.map fun field => (field.name, storeOf field.name) := by
  obtain ⟨stores, listed, named⟩ := extend_eq_ok success
  rw [listed, List.append_cancel_left_eq]
  clear listed success
  induction named with
  | nil => rfl
  | @cons field entry _ _ first _ ih =>
    obtain ⟨name, before, after, created⟩ := first
    have store := gives _ _ _ _ created
    rw [List.map_cons, ← ih, ← store, ← name]

/-- Of the stores of some fields, an index is found exactly when a field has its name. -/
theorem get?_fields (storeOf : IndexName → LeafStore σ τ IndexValue (IdSet ι))
    (fields : List (IndexedField α)) (name : IndexName) :
    (Indexes.mk (fields.map fun field => (field.name, storeOf field.name))).get? name =
      if name ∈ fields.map IndexedField.name then some (storeOf name) else none := by
  rw [get?, List.find?_map, Option.map_map]
  split
  case isTrue member =>
    obtain ⟨field, declared, named⟩ := List.mem_map.mp member
    cases found : fields.find? ((fun entry : IndexName × _ => entry.1 == name) ∘
        fun field => (field.name, storeOf field.name)) with
    | none =>
      have differs := List.find?_eq_none.mp found field declared
      simp [named] at differs
    | some other =>
      have same : other.name = name := by simpa using List.find?_some found
      simp [same]
  case isFalse absent =>
    rw [List.find?_eq_none.mpr]
    · rfl
    · intro field declared same
      exact absent (List.mem_map.mpr ⟨field, declared, by simpa using same⟩)

theorem isSome_get?_fields (storeOf : IndexName → LeafStore σ τ IndexValue (IdSet ι))
    (fields : List (IndexedField α)) (name : IndexName) :
    ((Indexes.mk (fields.map fun field => (field.name, storeOf field.name))).get? name).isSome = true ↔
      name ∈ fields.map IndexedField.name := by
  rw [isSome_get?_iff, names, List.map_map]
  rfl

end Indexes

namespace Collection

variable {σ τ α ι : Type}

theorem index_of_build {transactions : Transactions σ τ} {lookups : Lookups}
    {records : LeafStore σ τ ι α}
    {factory : IndexName → StoreAction σ (LeafStore σ τ IndexValue (IdSet ι))}
    {fields : List (IndexedField α)} {opening ready : σ} {collection : Collection σ τ α ι}
    (built : build transactions lookups records factory fields opening = (.ok collection, ready)) :
    collection.fields = fields ∧
      ∀ name ∈ collection.indexNames, ∃ store, collection.index name = .ok store := by
  obtain ⟨indexes, _, extended, made⟩ := Action.bind_eq_ok built
  cases made
  refine ⟨rfl, ?_⟩
  intro name declared
  have named : name ∈ indexes.names := by
    rw [Indexes.names_of_extend extended]
    exact List.mem_append_right _ declared
  obtain ⟨store, found⟩ := Option.isSome_iff_exists.mp (Indexes.isSome_get?_iff.mpr named)
  refine ⟨store, ?_⟩
  rw [index, found]

end Collection

end DocStore
