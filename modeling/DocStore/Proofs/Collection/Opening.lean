import DocStore.Proofs.Collection.Conduct
import DocStore.Proofs.Collection.Memory
import DocStore.Proofs.Store.Request

namespace DocStore

namespace Indexes

variable {σ τ α ι : Type}

/-- The factory, called for some names one after the other, gives each of them its store. -/
def Gives (factory : IndexName → StoreAction σ (LeafStore σ τ IndexValue (IdSet ι))) (world : σ)
    (stores : List (IndexName × LeafStore σ τ IndexValue (IdSet ι))) (next : σ) : Prop :=
  series factory (stores.map Prod.fst) world = (stores.map fun entry => .ok entry.2, next)

/-- How opening the stores of further fields ends. -/
inductive Ends (factory : IndexName → StoreAction σ (LeafStore σ τ IndexValue (IdSet ι)))
    (opened : Indexes σ τ ι) (fields : List (IndexedField α)) (world : σ) :
    Except QueryError (Indexes σ τ ι) → σ → Prop
  | complete {stores next} (named : stores.map Prod.fst = fields.map IndexedField.name)
      (apart : (opened.names ++ fields.map IndexedField.name).Nodup)
      (gives : Gives factory world stores next) :
      Ends factory opened fields world (.ok ⟨opened.stores ++ stores⟩) next
  | taken {front field back stores next} (split : fields = front ++ field :: back)
      (named : stores.map Prod.fst = front.map IndexedField.name)
      (apart : (opened.names ++ front.map IndexedField.name).Nodup)
      (gives : Gives factory world stores next)
      (again : field.name ∈ opened.names ++ front.map IndexedField.name) :
      Ends factory opened fields world (.error (.duplicateIndex field.name)) next
  | refused {front field back stores middle cause next} (split : fields = front ++ field :: back)
      (named : stores.map Prod.fst = front.map IndexedField.name)
      (apart : (opened.names ++ (front ++ [field]).map IndexedField.name).Nodup)
      (gives : Gives factory world stores middle)
      (failed : factory field.name middle = (.error cause, next)) :
      Ends factory opened fields world (.error (.store cause)) next

variable {factory : IndexName → StoreAction σ (LeafStore σ τ IndexValue (IdSet ι))}
  {opened : Indexes σ τ ι} {fields front back : List (IndexedField α)} {world middle next : σ}
  {stores : List (IndexName × LeafStore σ τ IndexValue (IdSet ι))} {name : IndexName}
  {store : LeafStore σ τ IndexValue (IdSet ι)}

theorem gives_nil : Gives factory world [] world := rfl

theorem eq_of_gives_nil (gives : Gives factory world [] next) : next = world :=
  (congrArg Prod.snd gives).symm

theorem gives_cons_iff : Gives factory world ((name, store) :: stores) next ↔
    ∃ middle, factory name world = (.ok store, middle) ∧ Gives factory middle stores next := by
  rcases called : factory name world with ⟨outcome, middle⟩
  rw [Gives, List.map_cons, series_cons called, List.map_cons, Prod.mk.injEq, List.cons.injEq]
  constructor
  · rintro ⟨⟨rfl, outcomes⟩, last⟩
    exact ⟨middle, rfl, Prod.ext outcomes last⟩
  · rintro ⟨other, same, gives⟩
    obtain ⟨rfl, rfl⟩ := Prod.mk.inj same
    exact ⟨⟨rfl, congrArg Prod.fst gives⟩, congrArg Prod.snd gives⟩

/-- As long as the names are new and the factory gives stores, these are added one after the other. -/
theorem extend_of_gives (named : stores.map Prod.fst = front.map IndexedField.name)
    (apart : (opened.names ++ front.map IndexedField.name).Nodup)
    (gives : Gives factory world stores next) :
    extend factory opened (front ++ back) world =
      extend factory ⟨opened.stores ++ stores⟩ back next := by
  induction front generalizing opened world stores with
  | nil =>
    obtain rfl : stores = [] := by simpa using named
    obtain rfl := eq_of_gives_nil gives
    rw [List.append_nil]
    rfl
  | cons field rest ih =>
    obtain ⟨⟨_, store⟩, others, rfl, rfl, following⟩ := List.map_eq_cons_iff.mp named
    obtain ⟨middle, created, further⟩ := gives_cons_iff.mp gives
    have free : field.name ∉ opened.names := fun taken =>
      (List.nodup_append.mp apart).2.2 _ taken _ (by simp) rfl
    have later : ((opened.add field.name store).names ++ rest.map IndexedField.name).Nodup := by
      simpa [add, names] using apart
    rw [List.cons_append, extend, if_neg free]
    refine (Action.bind_of_ok (Action.mapError_of_ok created)).trans ?_
    rw [ih following later further]
    simp [add]

theorem Ends.extend {answer : Except QueryError (Indexes σ τ ι)}
    (ends : Ends factory opened fields world answer next) :
    extend factory opened fields world = (answer, next) := by
  have names_append {front : List (IndexedField α)} {stores}
      (named : stores.map Prod.fst = front.map IndexedField.name) :
      (Indexes.mk (opened.stores ++ stores)).names =
        opened.names ++ front.map IndexedField.name := by
    rw [names, List.map_append, named, names]
  cases ends with
  | complete named apart gives =>
    have opens : Indexes.extend factory opened (fields ++ []) world = _ :=
      extend_of_gives named apart gives
    rwa [List.append_nil] at opens
  | taken split named apart gives again =>
    rw [← names_append named] at again
    rw [split, extend_of_gives named apart gives, Indexes.extend, if_pos again]
    rfl
  | @refused front field back stores middle cause _ split named apart gives failed =>
    rw [List.map_append, ← List.append_assoc] at apart
    obtain ⟨earlier, _, differs⟩ := List.nodup_append.mp apart
    have free : field.name ∉ (Indexes.mk (opened.stores ++ stores)).names := by
      rw [names_append named]
      exact fun again => differs _ again _ (by simp) rfl
    rw [split, extend_of_gives named earlier gives, Indexes.extend, if_neg free]
    exact Action.bind_of_error (Action.mapError_of_error failed)

/-- Opening always ends in one of these ways. -/
theorem exists_ends (opened : Indexes σ τ ι) (distinct : opened.names.Nodup)
    (fields : List (IndexedField α)) (world : σ) :
    ∃ answer next, Ends factory opened fields world answer next := by
  induction fields generalizing opened world with
  | nil => exact ⟨_, _, .complete (by rfl) (by simpa using distinct) gives_nil⟩
  | cons field rest ih =>
    by_cases again : field.name ∈ opened.names
    · exact ⟨_, _, .taken (List.nil_append _).symm (by rfl) (by simpa using distinct) gives_nil
        (by simpa using again)⟩
    have apart : (opened.names ++ [field.name]).Nodup := by
      refine List.nodup_append.mpr ⟨distinct, by simp, ?_⟩
      rintro other taken last single rfl
      obtain rfl := List.mem_singleton.mp single
      exact again taken
    rcases called : factory field.name world with ⟨cause | store, middle⟩
    · exact ⟨_, _, .refused (List.nil_append _).symm (by rfl) (by simpa using apart) gives_nil called⟩
    have grown : (opened.add field.name store).names = opened.names ++ [field.name] := by
      simp [add, names]
    have first {stores next} (gives : Gives factory middle stores next) :
        Gives factory world ((field.name, store) :: stores) next :=
      gives_cons_iff.mpr ⟨middle, called, gives⟩
    obtain ⟨answer, next, ends⟩ := ih (opened.add field.name store) (by rwa [grown]) middle
    refine ⟨answer, next, ?_⟩
    cases ends with
    | @complete stores _ named apart gives =>
      have ends : Ends factory opened (field :: rest) world _ next :=
        .complete (by simp [named]) (by simpa [grown] using apart) (first gives)
      simpa [add] using ends
    | taken split named apart gives again =>
      exact .taken (by rw [split, List.cons_append]) (by simp [named]) (by simpa [grown] using apart)
        (first gives) (by simpa [grown] using again)
    | refused split named apart gives failed =>
      exact .refused (by rw [split, List.cons_append]) (by simp [named]) (by simpa [grown] using apart)
        (first gives) failed

theorem build_eq_iff {answer : Except QueryError (Indexes σ τ ι)} :
    build factory fields world = (answer, next) ↔ Ends factory empty fields world answer next := by
  constructor
  · intro built
    obtain ⟨other, last, ends⟩ := exists_ends empty List.nodup_nil fields world
    obtain ⟨rfl, rfl⟩ := Prod.mk.inj (built.symm.trans ends.extend)
    exact ends
  · exact Ends.extend

theorem build_eq_ok_iff {indexes : Indexes σ τ ι} :
    build factory fields world = (.ok indexes, next) ↔
      (fields.map IndexedField.name).Nodup ∧ indexes.names = fields.map IndexedField.name ∧
        Gives factory world indexes.stores next := by
  rw [build_eq_iff]
  constructor
  · intro ends
    cases ends with
    | complete named apart gives => exact ⟨apart, named, gives⟩
  · rintro ⟨apart, named, gives⟩
    exact .complete named apart gives

theorem build_eq_duplicate_iff : build factory fields world = (.error (.duplicateIndex name), next) ↔
    ∃ front field back stores, fields = front ++ field :: back ∧ field.name = name ∧
      stores.map Prod.fst = front.map IndexedField.name ∧ (front.map IndexedField.name).Nodup ∧
      Gives factory world stores next ∧ name ∈ front.map IndexedField.name := by
  rw [build_eq_iff]
  constructor
  · intro ends
    cases ends with
    | taken split named apart gives again => exact ⟨_, _, _, _, split, rfl, named, apart, gives, again⟩
  · rintro ⟨front, field, back, stores, split, rfl, named, apart, gives, again⟩
    exact .taken split named apart gives again

theorem build_eq_store_iff {cause : StoreError} :
    build factory fields world = (.error (.store cause), next) ↔
      ∃ front field back stores middle, fields = front ++ field :: back ∧
        stores.map Prod.fst = front.map IndexedField.name ∧
        ((front ++ [field]).map IndexedField.name).Nodup ∧ Gives factory world stores middle ∧
        factory field.name middle = (.error cause, next) := by
  rw [build_eq_iff]
  constructor
  · intro ends
    cases ends with
    | refused split named apart gives failed => exact ⟨_, _, _, _, _, split, named, apart, gives, failed⟩
  · rintro ⟨front, field, back, stores, middle, split, named, apart, gives, failed⟩
    exact .refused split named apart gives failed

theorem get?_of_mem {indexes : Indexes σ τ ι} (distinct : indexes.names.Nodup)
    {entry : IndexName × LeafStore σ τ IndexValue (IdSet ι)} (member : entry ∈ indexes.stores) :
    indexes.get? entry.1 = some entry.2 := by
  have opened : indexes.get? entry.1 ≠ none := by
    rw [← Option.isSome_iff_ne_none, isSome_get?_iff]
    exact List.mem_map_of_mem member
  rw [get?] at opened ⊢
  cases found : indexes.stores.find? fun other => other.1 == entry.1 with
  | none => simp [found] at opened
  | some other =>
    have named : other.1 = entry.1 := by simpa using List.find?_some found
    rw [List.inj_on_of_nodup_map distinct (List.mem_of_find?_eq_some found) member named]
    rfl

theorem get?_eq_none {indexes : Indexes σ τ ι} (absent : name ∉ indexes.names) :
    indexes.get? name = none := by
  rw [← isSome_get?_iff] at absent
  simpa using absent

end Indexes

namespace Collection

variable {σ τ α ι : Type} [DecidableEq ι] [Record α ι]

section

variable {fields : List (IndexedField α)} {change : Change α ι} {tx : τ} {deeds : List (Deed τ α ι)}
  {error : QueryError}

omit [DecidableEq ι] [Record α ι] in
theorem Updated.failure {request : IndexValue → Request IndexValue (IdSet ι)}
    {entries : List (IndexName × IndexValue)}
    (updated : Updated tx request entries deeds (.error error)) : ∃ cause, error = .store cause := by
  generalize ended : (.error error : Except QueryError Unit) = outcome at updated
  induction updated with
  | none => cases ended
  | failed => exact ⟨_, Except.error.inj ended⟩
  | next _ ih => exact ih ended

/-- A change fails because a record cannot be projected or because a store fails, never for want of an
index. -/
theorem Changed.failure (changed : Changed fields change tx deeds (.error error)) :
    (∃ reason, error = .projection reason) ∨ ∃ cause, error = .store cause := by
  cases changed with
  | unprojected => exact .inl ⟨_, rfl⟩
  | failed => exact .inr ⟨_, rfl⟩
  | stranded => exact .inl ⟨_, rfl⟩
  | @listed _ _ _ _ outcome _ _ _ updated answers =>
    cases outcome with
    | ok => cases answers
    | error cause =>
      cases answers
      exact .inr updated.failure

theorem ChangedAlone.failure (alone : ChangedAlone fields change deeds (.error error)) :
    (∃ reason, error = .projection reason) ∨ ∃ cause, error = .store cause := by
  cases alone with
  | unbegun => exact .inr ⟨_, rfl⟩
  | ended changed closed =>
    cases closed with
    | uncommitted => exact .inr ⟨_, rfl⟩
    | unaborted => exact .inr ⟨_, rfl⟩
    | released => exact changed.failure

end

variable {collection : Collection σ τ α ι}

/-- A collection that has a store for each of its fields never misses one in a change. -/
theorem changeAlone_ne_unknownIndex
    (opened : ∀ name ∈ collection.indexNames, ∃ store, collection.index name = .ok store)
    (change : Change α ι) (world : σ) (name : IndexName) :
    (collection.changeAlone change world).1 ≠ .error (.unknownIndex name) := by
  intro unknown
  obtain ⟨deeds, _, alone⟩ := logs_changeAlone opened change [] world
  rw [unknown] at alone
  rcases alone.failure with ⟨reason, same⟩ | ⟨cause, same⟩ <;> cases same

theorem changeIn_ne_unknownIndex
    (opened : ∀ name ∈ collection.indexNames, ∃ store, collection.index name = .ok store)
    (tx : τ) (change : Change α ι) (world : σ) (name : IndexName) :
    (collection.changeIn tx change world).1 ≠ .error (.unknownIndex name) := by
  intro unknown
  obtain ⟨deeds, _, changed⟩ := logs_changeIn opened change [] world
  rw [unknown] at changed
  rcases changed.failure with ⟨reason, same⟩ | ⟨cause, same⟩ <;> cases same

/-- Whatever the factory does: opening the indexes of some fields calls it for one field after the other
and succeeds if and only if all names differ and all calls succeed. It ends before the call for a name that
an earlier field has, or with the first call that fails, and has no other failures. The world that is
reached is the one these calls lead to, so none is made besides them: a factory may write its calls down
there. What the factory gave is then found under the names of the fields, and nothing under other names. So
no change of a collection that was opened misses an index, however its stores behave. -/
theorem build_opens_in_turn (transactions : Transactions σ τ) (lookups : Lookups)
    (records : LeafStore σ τ ι α)
    (factory : IndexName → StoreAction σ (LeafStore σ τ IndexValue (IdSet ι)))
    (fields : List (IndexedField α)) (world : σ) :
    (∀ indexes next, Indexes.build factory fields world = (.ok indexes, next) ↔
      (fields.map IndexedField.name).Nodup ∧ indexes.names = fields.map IndexedField.name ∧
        Indexes.Gives factory world indexes.stores next) ∧
    (∀ name next, Indexes.build factory fields world = (.error (.duplicateIndex name), next) ↔
      ∃ front field back stores, fields = front ++ field :: back ∧ field.name = name ∧
        stores.map Prod.fst = front.map IndexedField.name ∧ (front.map IndexedField.name).Nodup ∧
        Indexes.Gives factory world stores next ∧ name ∈ front.map IndexedField.name) ∧
    (∀ cause next, Indexes.build factory fields world = (.error (.store cause), next) ↔
      ∃ front field back stores middle, fields = front ++ field :: back ∧
        stores.map Prod.fst = front.map IndexedField.name ∧
        ((front ++ [field]).map IndexedField.name).Nodup ∧
        Indexes.Gives factory world stores middle ∧
        factory field.name middle = (.error cause, next)) ∧
    (∀ error next, Indexes.build factory fields world = (.error error, next) →
      (∃ name, error = .duplicateIndex name) ∨ ∃ cause, error = .store cause) ∧
    (∀ indexes next, Indexes.build factory fields world = (.ok indexes, next) →
      (∀ entry ∈ indexes.stores, indexes.get? entry.1 = some entry.2) ∧
        ∀ name, name ∉ fields.map IndexedField.name → indexes.get? name = none) ∧
    ∀ collection ready,
      build transactions lookups records factory fields world = (.ok collection, ready) →
      ∀ later name,
        (∀ record, (collection.insert record later).1 ≠ .error (.unknownIndex name)) ∧
        (∀ id, (collection.remove id later).1 ≠ .error (.unknownIndex name)) ∧
        (∀ tx record, (collection.insertIn tx record later).1 ≠ .error (.unknownIndex name)) ∧
        ∀ tx id, (collection.removeIn tx id later).1 ≠ .error (.unknownIndex name) := by
  refine ⟨fun _ _ => Indexes.build_eq_ok_iff, fun _ _ => Indexes.build_eq_duplicate_iff,
    fun _ _ => Indexes.build_eq_store_iff, ?_, ?_, ?_⟩
  · intro error next failed
    cases Indexes.build_eq_iff.mp failed with
    | taken => exact .inl ⟨_, rfl⟩
    | refused => exact .inr ⟨_, rfl⟩
  · intro indexes next built
    obtain ⟨distinct, named, _⟩ := Indexes.build_eq_ok_iff.mp built
    rw [← named] at distinct ⊢
    exact ⟨fun entry => Indexes.get?_of_mem distinct, fun name => Indexes.get?_eq_none⟩
  · intro collection ready built later name
    obtain ⟨_, opened⟩ := index_of_build built
    exact ⟨fun record => changeAlone_ne_unknownIndex opened (.put record) later name,
      fun id => changeAlone_ne_unknownIndex opened (.drop id) later name,
      fun tx record => changeIn_ne_unknownIndex opened tx (.put record) later name,
      fun tx id => changeIn_ne_unknownIndex opened tx (.drop id) later name⟩

/-- Opening two indexes is seen as two calls of the factory, in the order of their fields. -/
theorem build_opens_in_turn_traced :
    ∃ collection ready, observed (fun _ => none) (IndexedField.members ["a", "b"])
        (⟨[], ⟨[], [], .empty⟩⟩ : Traced (Faulty (MemoryWorld Numbered Int64))) = (.ok collection, ready) ∧
      ready.trace = [.opened "a", .opened "b"] ∧
      ∀ later name, (collection.insert nestedRecord later).1 ≠ .error (.unknownIndex name) := by
  have opens : ∃ collection ready, observed (fun _ => none) (IndexedField.members ["a", "b"])
        (⟨[], ⟨[], [], .empty⟩⟩ : Traced (Faulty (MemoryWorld Numbered Int64))) = (.ok collection, ready) ∧
      ready.trace = [.opened "a", .opened "b"] := ⟨_, _, rfl, rfl⟩
  obtain ⟨collection, ready, built, traced⟩ := opens
  refine ⟨collection, ready, built, traced, fun later name => ?_⟩
  exact ((build_opens_in_turn _ _ _ _ _ _).2.2.2.2.2 _ _ built later name).1 nestedRecord

end Collection

end DocStore
