import DocStore.Proofs.Collection.Memory

namespace DocStore

/-- The leftmost index that a plan names and that is not among the declared ones. -/
def Operation.firstUndeclared? {ι : Type} (declared : List IndexName) (operation : Operation ι) :
    Option IndexName :=
  operation.indexNames.find? fun name => decide (name ∉ declared)

theorem Operation.firstUndeclared?_eq_none {ι : Type} {declared : List IndexName}
    {operation : Operation ι} :
    operation.firstUndeclared? declared = none ↔ ∀ name ∈ operation.indexNames, name ∈ declared := by
  simp [firstUndeclared?]

theorem Operation.exists_firstUndeclared?_iff {ι : Type} {declared : List IndexName}
    {operation : Operation ι} :
    (∃ name, operation.firstUndeclared? declared = some name) ↔
      ∃ name ∈ operation.indexNames, name ∉ declared := by
  constructor
  · rintro ⟨name, undeclared⟩
    exact ⟨name, List.mem_of_find?_eq_some undeclared, by simpa using List.find?_some undeclared⟩
  · rintro ⟨name, named, undeclared⟩
    cases first : operation.firstUndeclared? declared with
    | some name => exact ⟨name, rfl⟩
    | none => exact absurd (firstUndeclared?_eq_none.mp first name named) undeclared

namespace Collection

section

variable {σ τ α ι : Type} {collection : Collection σ τ α ι} {Shows : σ → Catalog α ι → Prop}
  {world : σ} {catalog : Catalog α ι} {name : IndexName}

namespace ReadsCatalog

theorem searchByIndex_undeclared (reads : ReadsCatalog collection Shows)
    (undeclared : name ∉ collection.indexNames) (value : IndexValue) :
    collection.searchByIndex name value world = (.error (.unknownIndex name), world) := by
  have absent : collection.indexes.get? name = none := by
    rw [← Option.not_isSome_iff_eq_none, reads.indexed name]
    exact undeclared
  have missing : collection.index name = .error (.unknownIndex name) := by
    rw [index, absent]
  rw [searchByIndex, missing, Action.bind_of_error (Action.ofExcept_apply ..)]

variable [DecidableEq ι] [Record α ι]

private theorem pair_undeclared (reads : ReadsCatalog collection Shows)
    (shows : Shows world catalog) (combine : List α → List α → List α) {left right : Operation ι}
    (former : left.firstUndeclared? collection.indexNames = some name →
      ∃ next, collection.run left world = (.error (.unknownIndex name), next) ∧ Shows next catalog)
    (latter : ∀ {world}, right.firstUndeclared? collection.indexNames = some name →
      Shows world catalog →
      ∃ next, collection.run right world = (.error (.unknownIndex name), next) ∧ Shows next catalog)
    (undeclared : (left.firstUndeclared? collection.indexNames).or
      (right.firstUndeclared? collection.indexNames) = some name) :
    ∃ next, (do
        let left ← collection.run left
        let right ← collection.run right
        pure (combine left right) : QueryAction σ (List α)) world =
          (.error (.unknownIndex name), next) ∧ Shows next catalog := by
  rcases Option.or_eq_some_iff.mp undeclared with first | ⟨none, second⟩
  · obtain ⟨next, failed, shown⟩ := former first
    exact ⟨next, Action.bind_of_error failed, shown⟩
  · obtain ⟨middle, found, shown⟩ := reads.run shows (Operation.firstUndeclared?_eq_none.mp none)
    obtain ⟨next, failed, final⟩ := latter second shown
    exact ⟨next, (Action.bind_of_ok found).trans (Action.bind_of_error failed), final⟩

/-- A plan that names undeclared indexes fails on the leftmost of them. -/
theorem run_undeclared (reads : ReadsCatalog collection Shows) {operation : Operation ι}
    (undeclared : operation.firstUndeclared? collection.indexNames = some name)
    (shows : Shows world catalog) :
    ∃ next, collection.run operation world = (.error (.unknownIndex name), next) ∧
      Shows next catalog := by
  induction operation generalizing world with
  | byId id => cases undeclared
  | byField other value =>
    obtain rfl : name = other := List.mem_singleton.mp (List.mem_of_find?_eq_some undeclared)
    have absent : name ∉ collection.indexNames := by simpa using List.find?_some undeclared
    exact ⟨world, reads.searchByIndex_undeclared absent value, shows⟩
  | both left right ihLeft ihRight =>
    rw [Operation.firstUndeclared?, Operation.indexNames, List.find?_append] at undeclared
    exact reads.pair_undeclared shows intersect (fun first => ihLeft first shows) ihRight undeclared
  | either left right ihLeft ihRight =>
    rw [Operation.firstUndeclared?, Operation.indexNames, List.find?_append] at undeclared
    exact reads.pair_undeclared shows union (fun first => ihLeft first shows) ihRight undeclared

end ReadsCatalog

end

variable {α ι : Type} [DecidableEq ι] [Record α ι] {fields : List (IndexedField α)}
  {world : MemoryWorld α ι} {operation : Operation ι}

private theorem execute_memory (fields : List (IndexedField α)) (world : MemoryWorld α ι)
    (operation : Operation ι) :
    (memory fields).execute operation world =
      match operation.firstUndeclared? (fields.map IndexedField.name) with
      | some name => (.error (.unknownIndex name), world)
      | none => (.ok (world.catalog.answer operation), world) := by
  split
  case h_1 name undeclared =>
    obtain ⟨_, failed, rfl, _⟩ := (memory_reads world).run_undeclared undeclared ⟨rfl, rfl⟩
    exact failed
  case h_2 none =>
    obtain ⟨_, found, rfl, _⟩ :=
      (memory_reads world).execute ⟨rfl, rfl⟩ (Operation.firstUndeclared?_eq_none.mp none)
    exact found

private theorem execute_memory_eq_error_iff {error : QueryError} :
    ((memory fields).execute operation world).1 = .error error ↔
      ∃ name, operation.firstUndeclared? (fields.map IndexedField.name) = some name ∧
        error = .unknownIndex name := by
  rw [execute_memory]
  cases operation.firstUndeclared? (fields.map IndexedField.name) with
  | some name => simp [eq_comm]
  | none => simp

private theorem execute_memory_of_ok {found : List α} {next : MemoryWorld α ι}
    (success : (memory fields).execute operation world = (.ok found, next)) :
    operation.firstUndeclared? (fields.map IndexedField.name) = none ∧
      found = world.catalog.answer operation ∧ next = world := by
  rw [execute_memory] at success
  split at success
  case h_1 => cases success
  case h_2 none =>
    cases success
    exact ⟨none, rfl, rfl⟩

private theorem execute_memory_operands {left right : Operation ι} {found : List α}
    {next : MemoryWorld α ι} (joined : operation.indexNames = left.indexNames ++ right.indexNames)
    (success : (memory fields).execute operation world = (.ok found, next)) :
    (memory fields).execute left world = (.ok (world.catalog.answer left), world) ∧
      (memory fields).execute right world = (.ok (world.catalog.answer right), world) := by
  obtain ⟨none, _⟩ := execute_memory_of_ok success
  rw [Operation.firstUndeclared?, joined, List.find?_append, Option.or_eq_none_iff] at none
  constructor
  · rw [execute_memory, Operation.firstUndeclared?, none.1]
  · rw [execute_memory, Operation.firstUndeclared?, none.2]

/-- Plans on any records in memory that stand under their own ids and any entries of the indexes. A
plan fails if and only if it names an index that was not declared, on the leftmost of them. Otherwise
it finds stored records, no two of one id: those an entry lists, the left records whose ids are found
on the right too, or the left records and then the right ones whose ids are not found on the left. -/
theorem memory_execute_exact (fields : List (IndexedField α))
    (distinct : (fields.map IndexedField.name).Nodup) (world : MemoryWorld α ι)
    (keyed : ∀ id record, world.records.get? id = some record → Record.id record = id) :
    inMemory fields world = (.ok (memory fields), world) ∧
      (∀ operation, (∃ error, ((memory fields).execute operation world).1 = .error error) ↔
        ∃ name ∈ operation.indexNames, name ∉ fields.map IndexedField.name) ∧
      (∀ operation error, ((memory fields).execute operation world).1 = .error error ↔
        ∃ name, operation.firstUndeclared? (fields.map IndexedField.name) = some name ∧
          error = .unknownIndex name) ∧
      (∀ operation found next, (memory fields).execute operation world = (.ok found, next) →
        next = world ∧ (found.map Record.id).Nodup ∧
          ∀ record ∈ found, world.records.get? (Record.id record) = some record) ∧
      (∀ id, (memory fields).execute (.byId id) world =
        (.ok (world.records.get? id).toList, world)) ∧
      (∀ name value found next,
        (memory fields).execute (.byField name value) world = (.ok found, next) →
        ∀ record, record ∈ found ↔ world.records.get? (Record.id record) = some record ∧
          ∃ set, world.setOf? name value = some set ∧ Record.id record ∈ set) ∧
      (∀ left right found next,
        (memory fields).execute (.both left right) world = (.ok found, next) →
        ∃ first second, (memory fields).execute left world = (.ok first, world) ∧
          (memory fields).execute right world = (.ok second, world) ∧
          found = first.filter fun record => decide (Record.id record ∈ second.map Record.id)) ∧
      ∀ left right found next,
        (memory fields).execute (.either left right) world = (.ok found, next) →
        ∃ first second, (memory fields).execute left world = (.ok first, world) ∧
          (memory fields).execute right world = (.ok second, world) ∧
          found = first ++ second.filter fun record =>
            decide (Record.id record ∉ first.map Record.id) := by
  have keyed : world.catalog.Keyed := keyed
  refine ⟨inMemory_eq distinct, ?_, fun _ _ => execute_memory_eq_error_iff, ?_, ?_, ?_, ?_, ?_⟩
  · intro operation
    rw [← Operation.exists_firstUndeclared?_iff]
    constructor
    · rintro ⟨error, failed⟩
      obtain ⟨name, undeclared, _⟩ := execute_memory_eq_error_iff.mp failed
      exact ⟨name, undeclared⟩
    · rintro ⟨name, undeclared⟩
      exact ⟨.unknownIndex name, execute_memory_eq_error_iff.mpr ⟨name, undeclared, rfl⟩⟩
  · intro operation found next success
    obtain ⟨_, rfl, rfl⟩ := execute_memory_of_ok success
    exact ⟨rfl, keyed.answer_nodup operation, fun record => keyed.answer_stored operation⟩
  · intro id
    rw [execute_memory]
    rfl
  · intro name value found next success record
    obtain ⟨_, rfl, _⟩ := execute_memory_of_ok success
    exact keyed.mem_listed
  · intro left right found next success
    obtain ⟨first, second⟩ := execute_memory_operands rfl success
    obtain ⟨_, rfl, _⟩ := execute_memory_of_ok success
    exact ⟨_, _, first, second, rfl⟩
  · intro left right found next success
    obtain ⟨first, second⟩ := execute_memory_operands rfl success
    obtain ⟨_, rfl, _⟩ := execute_memory_of_ok success
    exact ⟨_, _, first, second, keyed.answer_either left right⟩

/-- A world with one record, whose only entry also lists an id without a record. -/
def damagedWorld : MemoryWorld Numbered Int64 where
  records := Table.empty.put 1 nestedRecord
  entries := Table.empty.put (.parse "a.b") (Table.empty.put (.text "1") ⟨[2, 1], by decide⟩)

theorem memory_execute_damaged :
    ((IndexedField.members ["a.b"] : List (IndexedField Numbered)).map IndexedField.name).Nodup ∧
      (∀ id record, damagedWorld.records.get? id = some record → Record.id record = id) ∧
      ∃ found, (memory (IndexedField.members ["a.b"])).execute
          (.either (.byField (.parse "a.b") (.text "1")) (.byId 1)) damagedWorld =
        (.ok found, damagedWorld) ∧ (found.map (Record.id : Numbered → Int64)).Nodup := by
  have distinct :
      ((IndexedField.members ["a.b"] : List (IndexedField Numbered)).map IndexedField.name).Nodup := by
    simp [IndexedField.members]
  have keyed : ∀ id record, damagedWorld.records.get? id = some record →
      (Record.id record : Int64) = id := by
    intro id record stored
    rw [damagedWorld, Table.get?_put] at stored
    split at stored
    case isTrue same =>
      cases stored
      exact same.symm
    case isFalse => cases stored
  obtain ⟨_, _, _, sound, _⟩ := memory_execute_exact _ distinct damagedWorld keyed
  rcases executed : (memory (IndexedField.members ["a.b"])).execute
      (.either (.byField (.parse "a.b") (.text "1")) (.byId 1)) damagedWorld with ⟨error | found, next⟩
  · have success : ((memory (IndexedField.members ["a.b"])).execute
        (.either (.byField (.parse "a.b") (.text "1")) (.byId 1)) damagedWorld).1 =
          .ok [nestedRecord] := by
      decide +kernel
    rw [executed] at success
    cases success
  · obtain ⟨rfl, once, _⟩ := sound _ found next executed
    exact ⟨distinct, keyed, found, rfl, once⟩

end Collection

end DocStore
