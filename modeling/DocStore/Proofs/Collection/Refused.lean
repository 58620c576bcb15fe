import DocStore.Proofs.Collection.Memory

/-! Changes that are not made. Nothing is ever taken back in memory, so such a change must leave the
world alone by itself. An insertion projects before it writes. A removal writes before it projects,
and is safe because every stored record was projected when it was added. -/
namespace DocStore

variable {α ι : Type}

namespace IndexedField

/-- The first of the fields that fails on the record gives this reason. -/
def FirstRefusal (fields : List (IndexedField α)) (record : α) (reason : String) : Prop :=
  ∃ before field after, fields = before ++ field :: after ∧
    (∀ earlier ∈ before, ∃ value, earlier.project record = .ok value) ∧
    field.project record = .error reason

variable {fields : List (IndexedField α)} {record : α}

/-- One of the fields fails if and only if there is a first one that does. -/
theorem firstRefusal_iff_mem :
    (∃ reason, FirstRefusal fields record reason) ↔
      ∃ field ∈ fields, ∃ reason, field.project record = .error reason := by
  rw [← exists_mapM_error_iff]
  exact exists_congr fun reason => mapM_eq_error_iff.symm

end IndexedField

namespace Collection

open IndexedField

theorem project_eq_error_iff {σ τ : Type} {collection : Collection σ τ α ι} {record : α}
    {error : QueryError} : collection.project record = .error error ↔
      ∃ reason, FirstRefusal collection.fields record reason ∧ error = .projection reason := by
  simp only [project_eq_mapM, mapM_eq_error_iff, entry_eq_error_iff, exists_entry_iff]
  constructor
  · rintro ⟨before, field, after, split, accepted, reason, refused, same⟩
    exact ⟨reason, ⟨before, field, after, split, accepted, refused⟩, same⟩
  · rintro ⟨reason, ⟨before, field, after, split, accepted, refused⟩, same⟩
    exact ⟨before, field, after, split, accepted, reason, refused, same⟩

variable [DecidableEq ι] [Record α ι] {fields : List (IndexedField α)} {world next : MemoryWorld α ι}
  {changes : List (Change α ι)}

/-- A change in memory that is not made leaves the world as it is. -/
theorem changeIn_memory_unmade (reflects : world.catalog.Reflects fields changes)
    {change : Change α ι} {answer : Except QueryError Bool}
    (tried : (memory fields).changeIn () change world = (answer, next)) (unmade : answer ≠ .ok true) :
    next = world := by
  cases change with
  | put record =>
    rcases (memory fields : Collection _ _ α ι).project_cases record with
      ⟨entries, projects, projected⟩ | ⟨_, _, _, _, failed⟩
    · cases stored : world.catalog.records (Record.id record) with
      | some held =>
        have present : world.records.contains (Record.id record) = true := by
          rw [Table.contains_eq_isSome, show world.records.get? _ = some held from stored]
          rfl
        have refused : (memory fields).insertIn () record world = (.ok false, world) :=
          insertIn_of_present projected (if_pos present)
        exact (congrArg Prod.snd (refused.symm.trans tried)).symm
      | none =>
        obtain ⟨after, added, _⟩ := memory_writes.insertIn_free rfl trivial projected projects stored
        exact absurd (congrArg Prod.fst (tried.symm.trans added)) unmade
    · exact (congrArg Prod.snd ((insertIn_unprojected failed).symm.trans tried)).symm
  | drop id =>
    cases stored : world.catalog.records id with
    | none =>
      have nothing : (memory fields).records.remove () id world = (.ok none, world) := by
        have absent : world.records.get? id = none := stored
        change (Except.ok (world.records.get? id), { world with records := world.records.erase id }) = _
        rw [Table.erase_of_absent (Table.get?_eq_none_iff.mp absent), absent]
      exact (congrArg Prod.snd ((removeIn_of_absent nothing).symm.trans tried)).symm
    | some record =>
      have projects : ∃ entries, ProjectsTo (memory fields : Collection _ _ α ι).fields record entries ∧
          (memory fields : Collection _ _ α ι).project record = .ok entries :=
        Catalog.Reflects.project_stored reflects stored
      obtain ⟨entries, projects, projected⟩ := projects
      obtain ⟨after, removed, _⟩ := memory_writes.removeIn_found rfl stored projected projects
      exact absurd (congrArg Prod.fst (tried.symm.trans removed)) unmade

private theorem changeAlone_memory (distinct : (fields.map IndexedField.name).Nodup)
    (reflects : world.catalog.Reflects fields changes) (change : Change α ι) :
    (memory fields).changeAlone change world = (memory fields).changeIn () change world ∧
      ((memory fields).changeAlone change world).1 =
        (memory fields).answerTo world.catalog change := by
  have body : (memory fields).changeAlone change world =
      (memory fields).changeIn () change world := by
    rw [changeAlone_eq, change_memory]
  obtain ⟨_, _, answered, _⟩ :=
    memory_writes.changeIn distinct reflects rfl change fun _ _ => trivial
  exact ⟨body, by rw [body, answered]⟩

private theorem insert_memory_eq_error_iff (distinct : (fields.map IndexedField.name).Nodup)
    (reflects : world.catalog.Reflects fields changes) {record : α} {error : QueryError} :
    ((memory fields).insert record world).1 = .error error ↔
      ∃ reason, FirstRefusal fields record reason ∧ error = .projection reason := by
  have answered : ((memory fields).insert record world).1 =
      (memory fields).answerTo world.catalog (.put record) :=
    (changeAlone_memory distinct reflects (.put record)).2
  have first : (memory fields : Collection _ _ α ι).project record = .error error ↔
      ∃ reason, FirstRefusal fields record reason ∧ error = .projection reason :=
    project_eq_error_iff
  rw [answered, answerTo, ← first]
  cases (memory fields : Collection _ _ α ι).project record with
  | error cause => simp [Except.map]
  | ok entries => simp [Except.map]

variable [Identifier ι]

/-- After any session in memory, an insertion or removal that answers anything but yes has left the
records and the indexes as they were. An insertion fails if and only if a field fails on the record,
whether or not the id is taken, with the reason of the first such field. A removal never fails. -/
theorem inMemory_unmade_unchanged (fields : List (IndexedField α))
    (distinct : (fields.map IndexedField.name).Nodup) :
    inMemory fields (MemoryWorld.empty : MemoryWorld α ι) =
        (.ok (memory fields), MemoryWorld.empty) ∧
      ∀ (steps : List (Step Unit α ι)) (history : History Unit α ι) (world : MemoryWorld α ι),
        (memory fields).play steps .empty = (history, world) →
        (∀ record answer next, (memory fields).insert record world = (answer, next) →
          answer ≠ .ok true → next = world) ∧
        (∀ id answer next, (memory fields).remove id world = (answer, next) →
          answer ≠ .ok true → next = world) ∧
        (∀ record, (∃ error, ((memory fields).insert record world).1 = .error error) ↔
          ∃ field ∈ fields, ∃ reason, field.project record = .error reason) ∧
        (∀ record error, ((memory fields).insert record world).1 = .error error ↔
          ∃ reason, FirstRefusal fields record reason ∧ error = .projection reason) ∧
        ∀ id, ∃ removed, ((memory fields).remove id world).1 = .ok removed := by
  refine ⟨inMemory_eq distinct, ?_⟩
  intro steps history world played
  have reflects : world.catalog.Reflects fields history.changes := by
    have after := memory_reflects distinct steps
    rw [played] at after
    exact after
  have alone := changeAlone_memory distinct reflects
  have unchanged (change : Change α ι) (answer : Except QueryError Bool) (next : MemoryWorld α ι)
      (tried : (memory fields).changeAlone change world = (answer, next)) (unmade : answer ≠ .ok true) :
      next = world :=
    changeIn_memory_unmade reflects ((alone change).1.symm.trans tried) unmade
  have fails (record : α) (error : QueryError) :
      ((memory fields).insert record world).1 = .error error ↔
        ∃ reason, FirstRefusal fields record reason ∧ error = .projection reason :=
    insert_memory_eq_error_iff distinct reflects
  refine ⟨fun record => unchanged (.put record), fun id => unchanged (.drop id), ?_, fails, ?_⟩
  · intro record
    rw [← firstRefusal_iff_mem]
    constructor
    · rintro ⟨error, failed⟩
      obtain ⟨reason, refusal, _⟩ := (fails record error).mp failed
      exact ⟨reason, refusal⟩
    · rintro ⟨reason, refusal⟩
      exact ⟨.projection reason, (fails record _).mpr ⟨reason, refusal, rfl⟩⟩
  · intro id
    exact ⟨_, (alone (.drop id)).2⟩

/-- A record with the id of `nestedRecord` that refuses to be written. -/
def poisonedRecord : Numbered := ⟨1, [("poison", .string "refused")]⟩

theorem inMemory_poisoned_unchanged :
    ((IndexedField.members ["a.b"] : List (IndexedField Numbered)).map IndexedField.name).Nodup ∧
      (memory (IndexedField.members ["a.b"])).insert poisonedRecord
          ((memory (IndexedField.members ["a.b"])).play [.alone (.put nestedRecord)] .empty).2 =
        (.error (.projection "refused"),
          ((memory (IndexedField.members ["a.b"])).play [.alone (.put nestedRecord)] .empty).2) := by
  have distinct :
      ((IndexedField.members ["a.b"] : List (IndexedField Numbered)).map IndexedField.name).Nodup := by
    simp [IndexedField.members]
  rcases played : (memory (IndexedField.members ["a.b"])).play [.alone (.put nestedRecord)] .empty with
    ⟨history, world⟩
  obtain ⟨unchanged, _, _, fails, _⟩ := (inMemory_unmade_unchanged _ distinct).2 _ history world played
  have refused := (fails poisonedRecord (.projection "refused")).mpr
    ⟨"refused", ⟨[], .member (.parse "a.b"), [], rfl, by simp, rfl⟩, rfl⟩
  have unmade : ((memory (IndexedField.members ["a.b"])).insert poisonedRecord world).1 ≠ .ok true := by
    rw [refused]
    simp
  have same := unchanged poisonedRecord _ _ rfl unmade
  exact ⟨distinct, Prod.ext refused same⟩

end Collection

end DocStore
