import DocStore.Proofs.Catalog.Answer

namespace DocStore

variable {σ τ α ι : Type}

def IndexedField.members [Record α ι] (paths : List String) : List (IndexedField α) :=
  paths.map fun path => IndexedField.member (Path.parse path)

variable (α) in
theorem IndexedField.members_names [Record α ι] (paths : List String) :
    (IndexedField.members paths : List (IndexedField α)).map IndexedField.name =
      paths.map IndexName.parse := by
  rw [IndexedField.members, List.map_map]
  rfl

/-- The value of a record in the index of a name. -/
def Record.valueOf? [Record α ι] (record : α) (name : IndexName) : Option IndexValue :=
  Record.valueAt? record (Path.parse name.text)

theorem IndexedField.project_member_iff [Record α ι] {path : Path} {record : α}
    {value : IndexValue} :
    (IndexedField.member path).project record = .ok value ↔
      Record.valueAt? record path = some value := by
  simp only [IndexedField.member, Record.valueAt?]
  cases Record.toJson record with
  | error reason => simp [Except.map, Except.toOption]
  | ok json => simp [Except.map, Except.toOption]

/-- Of fields at dotted paths the name alone tells the value of a record. -/
theorem IndexedField.members_agree [Record α ι] {paths : List String} :
    ∀ field ∈ (IndexedField.members paths : List (IndexedField α)), ∀ record value,
      field.project record = .ok value ↔ Record.valueOf? record field.name = some value := by
  intro field declared record value
  obtain ⟨path, _, rfl⟩ := List.mem_map.mp declared
  rw [IndexedField.project_member_iff]
  change _ ↔ Record.valueAt? record (Path.parse path).covered = some value
  rw [Path.covered_parse]

namespace Collection

/-- The stores of a collection are read on the worlds that show a catalog as the catalog itself, and
exactly the declared indexes are there. -/
structure ReadsCatalog (collection : Collection σ τ α ι) (Shows : σ → Catalog α ι → Prop) :
    Prop where
  indexed : ∀ name, (collection.indexes.get? name).isSome = true ↔ name ∈ collection.indexNames
  getById : ∀ {world catalog}, Shows world catalog → ∀ id,
    ∃ next, collection.getById id world = (.ok (catalog.records id), next) ∧ Shows next catalog
  search : ∀ name ∈ collection.indexNames, ∀ {world catalog}, Shows world catalog → ∀ value,
    ∃ next, collection.searchByIndex name value world = (.ok (catalog.listed name value), next) ∧
      Shows next catalog

theorem fetch_of_find {collection : Collection σ τ α ι} {tx : τ} {lookup : ι → Option α}
    {Shows : σ → Prop}
    (finds : ∀ {world}, Shows world → ∀ id,
      ∃ next, collection.records.find tx id world = (.ok (lookup id), next) ∧ Shows next)
    (ids : List ι) {world : σ} (shows : Shows world) :
    ∃ next, collection.fetch tx ids world = (.ok (ids.filterMap lookup), next) ∧ Shows next := by
  induction ids generalizing world with
  | nil => exact ⟨world, rfl, shows⟩
  | cons id rest ih =>
    obtain ⟨middle, found, shown⟩ := finds shows id
    obtain ⟨next, others, final⟩ := ih shown
    refine ⟨next, ?_, final⟩
    rw [fetch, Action.bind_of_ok (Action.mapError_of_ok found), Action.bind_of_ok others]
    cases here : lookup id with
    | none => simp [here]
    | some record => simp [here]

variable [DecidableEq ι] [Record α ι] {collection : Collection σ τ α ι}
  {Shows : σ → Catalog α ι → Prop} {world : σ} {catalog : Catalog α ι}

namespace ReadsCatalog

variable {operation : Operation ι}

omit [DecidableEq ι] [Record α ι] in
private theorem pair_reads {former latter : QueryAction σ (List α)} {first second : List α}
    (combine : List α → List α → List α)
    (before : ∃ next, former world = (.ok first, next) ∧ Shows next catalog)
    (after : ∀ {next}, Shows next catalog →
      ∃ last, latter next = (.ok second, last) ∧ Shows last catalog) :
    ∃ last, (do
        let left ← former
        let right ← latter
        pure (combine left right) : QueryAction σ (List α)) world =
          (.ok (combine first second), last) ∧ Shows last catalog := by
  obtain ⟨middle, found, shown⟩ := before
  obtain ⟨last, others, final⟩ := after shown
  refine ⟨last, ?_, final⟩
  rw [Action.bind_of_ok found, Action.bind_of_ok others]
  rfl

theorem run (reads : ReadsCatalog collection Shows) (shows : Shows world catalog)
    (declared : ∀ name ∈ operation.indexNames, name ∈ collection.indexNames) :
    ∃ next, collection.run operation world = (.ok (catalog.answer operation), next) ∧
      Shows next catalog := by
  induction operation generalizing world with
  | byId id =>
    obtain ⟨next, success, shown⟩ := reads.getById shows id
    refine ⟨next, ?_, shown⟩
    rw [Collection.run, Action.bind_of_ok success]
    rfl
  | byField name value =>
    exact reads.search name (declared name (by simp [Operation.indexNames])) shows value
  | both left right ihLeft ihRight =>
    have former : ∀ name ∈ left.indexNames, name ∈ collection.indexNames := fun name named =>
      declared name (by simp [Operation.indexNames, named])
    have latter : ∀ name ∈ right.indexNames, name ∈ collection.indexNames := fun name named =>
      declared name (by simp [Operation.indexNames, named])
    exact pair_reads intersect (ihLeft shows former) fun shown => ihRight shown latter
  | either left right ihLeft ihRight =>
    have former : ∀ name ∈ left.indexNames, name ∈ collection.indexNames := fun name named =>
      declared name (by simp [Operation.indexNames, named])
    have latter : ∀ name ∈ right.indexNames, name ∈ collection.indexNames := fun name named =>
      declared name (by simp [Operation.indexNames, named])
    exact pair_reads union (ihLeft shows former) fun shown => ihRight shown latter

omit [DecidableEq ι] [Record α ι] in
theorem missingIndex?_eq_none (reads : ReadsCatalog collection Shows)
    (declared : ∀ name ∈ operation.indexNames, name ∈ collection.indexNames) :
    collection.missingIndex? operation = none := by
  rw [missingIndex?, List.find?_eq_none]
  intro name named
  have opened := (reads.indexed name).mpr (declared name named)
  rw [Option.isSome_iff_ne_none] at opened
  simpa using opened

theorem execute (reads : ReadsCatalog collection Shows) (shows : Shows world catalog)
    (declared : ∀ name ∈ operation.indexNames, name ∈ collection.indexNames) :
    ∃ next, collection.execute operation world = (.ok (catalog.answer operation), next) ∧
      Shows next catalog := by
  rw [Collection.execute]
  cases collection.lookups with
  | inTurn => exact reads.run shows declared
  | together =>
    rw [reads.missingIndex?_eq_none declared]
    exact reads.run shows declared

end ReadsCatalog

section

variable [Identifier ι] {scope : Scope} {expr : Expr} {operation : Operation ι}

omit [DecidableEq ι] in
theorem plan_eq_ok_iff : collection.plan scope expr = .ok operation ↔
    ∃ rest, expr.CompilesTo (Record.idMember α) scope [] operation rest := by
  simp only [← Expr.run_eq_ok_iff, plan]
  cases made : (expr.compile (Record.idMember α) scope : Compilation (Operation ι)).run [] with
  | mk outcome rest =>
    cases outcome with
    | error cause => exact iff_of_false nofun (fun ⟨_, same⟩ => nomatch same)
    | ok found =>
      constructor
      · intro same
        cases same
        exact ⟨rest, rfl⟩
      · rintro ⟨_, same⟩
        cases same
        rfl

omit [DecidableEq ι] in
theorem plan_eq_error {cause : QueryError} (failed : collection.plan scope expr = .error cause) :
    ∃ reason, cause = .unsupportedPredicate reason := by
  rw [plan] at failed
  cases made : (expr.compile (Record.idMember α) scope : Compilation (Operation ι)).run [] with
  | mk outcome rest =>
    rw [made] at failed
    cases outcome with
    | error found =>
      cases failed
      exact ⟨_, rfl⟩
    | ok => cases failed

/-- A query finds each stored record that satisfies it once, where the value of a field is the one of
the record in the index the field names. -/
theorem ReadsCatalog.find_exact (reads : ReadsCatalog collection Shows)
    {changes : List (Change α ι)} (reflects : catalog.Reflects collection.fields changes)
    {valueOf : α → IndexName → Option IndexValue}
    (agrees : ∀ field ∈ collection.fields, ∀ record value,
      field.project record = .ok value ↔ valueOf record field.name = some value)
    (shows : Shows world catalog) (accepted : collection.plan scope expr = .ok operation)
    (declared : ∀ path ∈ expr.fieldPaths (Record.idMember α),
      path.indexName ∈ collection.indexNames) :
    ∃ found next, collection.find scope expr world = (.ok found, next) ∧ Shows next catalog ∧
      (found.map Record.id).Nodup ∧
      ∀ record, record ∈ found ↔ catalog.records (Record.id record) = some record ∧
        (expr.evaluate (Record.idMember α) scope (Record.id record)
          (fun path => valueOf record path.indexName) []).1 = true := by
  obtain ⟨rest, compiles⟩ := plan_eq_ok_iff.mp accepted
  have named : ∀ name ∈ operation.indexNames, name ∈ collection.indexNames := by
    intro name member
    rw [compiles.indexNames] at member
    obtain ⟨path, here, rfl⟩ := List.mem_map.mp member
    exact declared path here
  obtain ⟨next, success, shown⟩ := reads.execute shows named
  obtain ⟨distinct, exact⟩ := reflects.answer_exact agrees named
  refine ⟨catalog.answer operation, next, ?_, shown, distinct, ?_⟩
  · rw [find, accepted, Action.bind_of_ok (Action.ofExcept_apply ..), success]
  · intro record
    rw [exact record, compiles.evaluate (Record.id record) (valueOf record)]

/-- What a query for one record makes of the records it finds. -/
def onlyRecord (found : List α) : Except QueryError (Option α) :=
  match found with
  | [] => .ok none
  | [record] => .ok (some record)
  | records => .error (.multipleResults records.length)

theorem findOne_of_find {found : List α} {next : σ}
    (success : collection.find scope expr world = (.ok found, next)) :
    collection.findOne scope expr world = (onlyRecord found, next) := by
  rw [findOne, Action.bind_of_ok success]
  match found with
  | [] => rfl
  | [record] => rfl
  | _ :: _ :: _ => rfl

end

end Collection

end DocStore
