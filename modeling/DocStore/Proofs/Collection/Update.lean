import DocStore.Proofs.Catalog.Reflects

namespace DocStore.Collection

variable {σ τ α ι : Type} [DecidableEq ι] [Record α ι]

section

variable {collection : Collection σ τ α ι} {tx : τ} {world next : σ} {record : α} {id : ι}
  {entries : List (IndexName × IndexValue)} {error : StoreError}

/-- A record that cannot be projected is refused before anything is touched. -/
theorem insertIn_unprojected {cause : QueryError} (failed : collection.project record = .error cause) :
    collection.insertIn tx record world = (.error cause, world) := by
  rw [insertIn, failed, Action.bind_of_error (Action.ofExcept_apply ..)]

theorem insertIn_failed (projected : collection.project record = .ok entries)
    (failed : collection.records.add tx (Record.id record) record world = (.error error, next)) :
    collection.insertIn tx record world = (.error (.store error), next) := by
  rw [insertIn, projected, Action.bind_of_ok (Action.ofExcept_apply ..)]
  exact Action.bind_of_error (Action.mapError_of_error failed)

theorem insertIn_of_present (projected : collection.project record = .ok entries)
    (present : collection.records.add tx (Record.id record) record world = (.ok false, next)) :
    collection.insertIn tx record world = (.ok false, next) := by
  rw [insertIn, projected, Action.bind_of_ok (Action.ofExcept_apply ..),
    Action.bind_of_ok (Action.mapError_of_ok present)]
  rfl

theorem insertIn_of_added (projected : collection.project record = .ok entries)
    (added : collection.records.add tx (Record.id record) record world = (.ok true, next)) :
    collection.insertIn tx record world =
      (do forEntries (collection.addToIndex tx (Record.id record)) entries; pure true) next := by
  rw [insertIn, projected, Action.bind_of_ok (Action.ofExcept_apply ..),
    Action.bind_of_ok (Action.mapError_of_ok added)]
  rfl

omit [Record α ι] in
theorem removeIn_failed (failed : collection.records.remove tx id world = (.error error, next)) :
    collection.removeIn tx id world = (.error (.store error), next) :=
  Action.bind_of_error (Action.mapError_of_error failed)

omit [Record α ι] in
theorem removeIn_of_absent (absent : collection.records.remove tx id world = (.ok none, next)) :
    collection.removeIn tx id world = (.ok false, next) := by
  rw [removeIn, Action.bind_of_ok (Action.mapError_of_ok absent)]
  rfl

omit [Record α ι] in
/-- A removed record that cannot be projected is an error after it has been removed. -/
theorem removeIn_unprojected {cause : QueryError}
    (removed : collection.records.remove tx id world = (.ok (some record), next))
    (failed : collection.project record = .error cause) :
    collection.removeIn tx id world = (.error cause, next) := by
  rw [removeIn, Action.bind_of_ok (Action.mapError_of_ok removed)]
  dsimp only
  rw [failed, Action.bind_of_error (Action.ofExcept_apply ..)]

omit [Record α ι] in
theorem removeIn_of_removed
    (removed : collection.records.remove tx id world = (.ok (some record), next))
    (projected : collection.project record = .ok entries) :
    collection.removeIn tx id world =
      (do forEntries (collection.removeFromIndex tx id) entries; pure true) next := by
  rw [removeIn, Action.bind_of_ok (Action.mapError_of_ok removed)]
  dsimp only
  rw [projected, Action.bind_of_ok (Action.ofExcept_apply ..)]

end

/-- Updates one index entry, a missing one to `first`. Adding an id and removing one are both done so. -/
def reviseIndex (collection : Collection σ τ α ι) (tx : τ) (first : IdSet ι)
    (update : IdSet ι → IdSet ι) (entry : IndexName × IndexValue) : QueryAction σ Unit := do
  let store ← Action.ofExcept (collection.index entry.1)
  let _ ← (store.addOrUpdate tx entry.2 first fun _ set => update set).mapError .store
  pure ()

/-- Inside the transaction `tx` the stores of a collection act on the worlds that show a catalog as on
the catalog itself. Only `Writable` records are asked to be added. -/
structure WritesCatalog (collection : Collection σ τ α ι) (tx : τ) (Writable : α → Prop)
    (Shows : σ → Catalog α ι → Prop) : Prop where
  taken : ∀ {world catalog record held}, Shows world catalog → Writable record →
    catalog.records (Record.id record) = some held →
    ∃ next, collection.records.add tx (Record.id record) record world = (.ok false, next) ∧
      Shows next catalog
  free : ∀ {world catalog record}, Shows world catalog → Writable record →
    catalog.records (Record.id record) = none →
    ∃ next, collection.records.add tx (Record.id record) record world = (.ok true, next) ∧
      Shows next (catalog.setRecord (Record.id record) (some record))
  remove : ∀ {world catalog}, Shows world catalog → ∀ id,
    ∃ next, collection.records.remove tx id world = (.ok (catalog.records id), next) ∧
      Shows next (catalog.setRecord id none)
  revise : ∀ field ∈ collection.fields, ∃ store, collection.index field.name = .ok store ∧
    ∀ {world catalog}, Shows world catalog → ∀ value first update,
      ∃ next, store.addOrUpdate tx value first (fun _ set => update set) world =
          (.ok (Catalog.revised first update (catalog.entries field.name value)), next) ∧
        Shows next (catalog.revise first update (field.name, value))

namespace WritesCatalog

variable {collection : Collection σ τ α ι} {tx : τ} {Writable : α → Prop}
  {Shows : σ → Catalog α ι → Prop} {world : σ} {catalog : Catalog α ι} {record : α}
  {entries : List (IndexName × IndexValue)}

theorem revise_entry (writes : WritesCatalog collection tx Writable Shows)
    (shows : Shows world catalog) {entry : IndexName × IndexValue}
    (declared : entry.1 ∈ collection.indexNames) (first : IdSet ι) (update : IdSet ι → IdSet ι) :
    ∃ next, collection.reviseIndex tx first update entry world = (.ok (), next) ∧
      Shows next (catalog.revise first update entry) := by
  obtain ⟨field, member, named⟩ := List.mem_map.mp declared
  obtain ⟨store, opened, acts⟩ := writes.revise field member
  obtain ⟨next, success, shown⟩ := acts shows entry.2 first update
  refine ⟨next, ?_, ?_⟩
  · rw [reviseIndex, ← named, Action.bind_of_ok (by rw [Action.ofExcept_apply, opened]),
      Action.bind_of_ok (Action.mapError_of_ok success)]
    rfl
  · rw [named] at shown
    exact shown

omit [DecidableEq ι] [Record α ι] in
private theorem forEntries_revise (Shows : σ → Catalog α ι → Prop)
    (act : IndexName × IndexValue → QueryAction σ Unit)
    {first : IdSet ι} {update : IdSet ι → IdSet ι}
    (acts : ∀ {world catalog} entry, entry.1 ∈ collection.indexNames → Shows world catalog →
      ∃ next, act entry world = (.ok (), next) ∧ Shows next (catalog.revise first update entry))
    (declared : ∀ entry ∈ entries, entry.1 ∈ collection.indexNames) (shows : Shows world catalog) :
    ∃ next, forEntries act entries world = (.ok (), next) ∧
      Shows next (entries.foldl (Catalog.revise first update) catalog) := by
  induction entries generalizing world catalog with
  | nil => exact ⟨world, rfl, shows⟩
  | cons entry rest ih =>
    obtain ⟨middle, success, shown⟩ := acts entry (declared entry (by simp)) shows
    obtain ⟨next, successes, final⟩ :=
      ih (fun other member => declared other (by simp [member])) shown
    refine ⟨next, ?_, final⟩
    rw [forEntries, Action.bind_of_ok success, successes]

theorem insertIn_taken (writes : WritesCatalog collection tx Writable Shows)
    (shows : Shows world catalog) (writable : Writable record)
    (projected : collection.project record = .ok entries) {held : α}
    (taken : catalog.records (Record.id record) = some held) :
    ∃ next, collection.insertIn tx record world = (.ok false, next) ∧ Shows next catalog := by
  obtain ⟨next, success, shown⟩ := writes.taken shows writable taken
  exact ⟨next, insertIn_of_present projected success, shown⟩

theorem insertIn_free (writes : WritesCatalog collection tx Writable Shows)
    (shows : Shows world catalog) (writable : Writable record)
    (projected : collection.project record = .ok entries)
    (projects : ProjectsTo collection.fields record entries)
    (free : catalog.records (Record.id record) = none) :
    ∃ next, collection.insertIn tx record world = (.ok true, next) ∧
      Shows next (catalog.insert (Record.id record) record entries) := by
  obtain ⟨middle, added, shown⟩ := writes.free shows writable free
  obtain ⟨next, listed, final⟩ := forEntries_revise Shows
    (collection.addToIndex tx (Record.id record))
    (fun entry declared here => writes.revise_entry here declared (.single (Record.id record))
      fun set => set.insert (Record.id record))
    projects.declared shown
  refine ⟨next, ?_, final⟩
  rw [insertIn_of_added projected added]
  exact Action.bind_of_ok listed

theorem removeIn_absent (writes : WritesCatalog collection tx Writable Shows)
    (shows : Shows world catalog) {id : ι} (absent : catalog.records id = none) :
    ∃ next, collection.removeIn tx id world = (.ok false, next) ∧
      Shows next (catalog.setRecord id none) := by
  obtain ⟨next, success, shown⟩ := writes.remove shows id
  rw [absent] at success
  exact ⟨next, removeIn_of_absent success, shown⟩

theorem removeIn_found (writes : WritesCatalog collection tx Writable Shows)
    (shows : Shows world catalog) {id : ι} (found : catalog.records id = some record)
    (projected : collection.project record = .ok entries)
    (projects : ProjectsTo collection.fields record entries) :
    ∃ next, collection.removeIn tx id world = (.ok true, next) ∧
      Shows next (catalog.remove id entries) := by
  obtain ⟨middle, removed, shown⟩ := writes.remove shows id
  rw [found] at removed
  obtain ⟨next, struck, final⟩ := forEntries_revise Shows
    (collection.removeFromIndex tx id)
    (fun entry declared here => writes.revise_entry here declared .empty fun set => set.erase id)
    projects.declared shown
  refine ⟨next, ?_, final⟩
  rw [removeIn_of_removed removed projected]
  exact Action.bind_of_ok struck

end WritesCatalog

section

variable {collection : Collection σ τ α ι} {tx : τ} {world : σ}

section

variable {body : τ → QueryAction σ Bool} {opened done next : σ} {error : QueryError}
  {cause : StoreError}

omit [DecidableEq ι] [Record α ι] in
theorem change_unbegun (failed : collection.records.begin world = (.error cause, next)) :
    collection.change body world = (.error (.store cause), next) :=
  Action.bind_of_error (Action.mapError_of_error failed)

omit [DecidableEq ι] [Record α ι] in
theorem change_uncommitted (begun : collection.begin world = (.ok tx, opened))
    (made : body tx opened = (.ok true, done))
    (failed : collection.transactions.commit tx done = (.error cause, next)) :
    collection.change body world = (.error (.store cause), next) := by
  rw [change, Action.bind_of_ok begun, Action.bind_of_ok (Action.attempt_apply made)]
  exact Action.bind_of_error (Action.mapError_of_error failed)

omit [DecidableEq ι] [Record α ι] in
theorem change_unaborted (begun : collection.begin world = (.ok tx, opened))
    (unmade : body tx opened = (.ok false, done))
    (failed : collection.transactions.abort tx done = (.error cause, next)) :
    collection.change body world = (.error (.store cause), next) := by
  rw [change, Action.bind_of_ok begun, Action.bind_of_ok (Action.attempt_apply unmade)]
  exact Action.bind_of_error (Action.mapError_of_error failed)

omit [DecidableEq ι] [Record α ι] in
theorem change_made (begun : collection.begin world = (.ok tx, opened))
    (made : body tx opened = (.ok true, done))
    (committed : collection.transactions.commit tx done = (.ok (), next)) :
    collection.change body world = (.ok true, next) := by
  rw [change, Action.bind_of_ok begun, Action.bind_of_ok (Action.attempt_apply made)]
  exact Action.bind_of_ok (Action.mapError_of_ok committed)

omit [DecidableEq ι] [Record α ι] in
theorem change_unmade (begun : collection.begin world = (.ok tx, opened))
    (unmade : body tx opened = (.ok false, done))
    (aborted : collection.transactions.abort tx done = (.ok (), next)) :
    collection.change body world = (.ok false, next) := by
  rw [change, Action.bind_of_ok begun, Action.bind_of_ok (Action.attempt_apply unmade)]
  exact Action.bind_of_ok (Action.mapError_of_ok aborted)

omit [DecidableEq ι] [Record α ι] in
theorem change_failed (begun : collection.begin world = (.ok tx, opened))
    (failed : body tx opened = (.error error, done)) :
    collection.change body world = (.error error, collection.transactions.release tx done) := by
  rw [change, Action.bind_of_ok begun, Action.bind_of_ok (Action.attempt_apply failed)]
  rfl

end

/-- The ways in which a change in a transaction of its own can end. -/
inductive ChangeEnds (collection : Collection σ τ α ι) (body : τ → QueryAction σ Bool) (world : σ) :
    Except QueryError Bool → σ → Prop
  | unbegun {cause next} (failed : collection.records.begin world = (.error cause, next)) :
      ChangeEnds collection body world (.error (.store cause)) next
  | failed {tx opened error done} (begun : collection.records.begin world = (.ok tx, opened))
      (failed : body tx opened = (.error error, done)) :
      ChangeEnds collection body world (.error error) (collection.transactions.release tx done)
  | unmade {tx opened done next} (begun : collection.records.begin world = (.ok tx, opened))
      (unmade : body tx opened = (.ok false, done))
      (aborted : collection.transactions.abort tx done = (.ok (), next)) :
      ChangeEnds collection body world (.ok false) next
  | unaborted {tx opened done cause next} (begun : collection.records.begin world = (.ok tx, opened))
      (unmade : body tx opened = (.ok false, done))
      (failed : collection.transactions.abort tx done = (.error cause, next)) :
      ChangeEnds collection body world (.error (.store cause)) next
  | made {tx opened done next} (begun : collection.records.begin world = (.ok tx, opened))
      (made : body tx opened = (.ok true, done))
      (committed : collection.transactions.commit tx done = (.ok (), next)) :
      ChangeEnds collection body world (.ok true) next
  | uncommitted {tx opened done cause next}
      (begun : collection.records.begin world = (.ok tx, opened))
      (made : body tx opened = (.ok true, done))
      (failed : collection.transactions.commit tx done = (.error cause, next)) :
      ChangeEnds collection body world (.error (.store cause)) next

omit [DecidableEq ι] [Record α ι] in
theorem change_ends {body : τ → QueryAction σ Bool} {answer : Except QueryError Bool} {next : σ}
    (answered : collection.change body world = (answer, next)) :
    collection.ChangeEnds body world answer next := by
  rcases begun : collection.records.begin world with ⟨cause | tx, opened⟩
  · rw [change_unbegun begun] at answered
    cases answered
    exact .unbegun begun
  have begunHere : collection.begin world = (.ok tx, opened) := Action.mapError_of_ok begun
  rcases ended : body tx opened with ⟨error | made, done⟩
  · rw [change_failed begunHere ended] at answered
    cases answered
    exact .failed begun ended
  cases made with
  | false =>
    rcases aborted : collection.transactions.abort tx done with ⟨cause | _, final⟩
    · rw [change_unaborted begunHere ended aborted] at answered
      cases answered
      exact .unaborted begun ended aborted
    · rw [change_unmade begunHere ended aborted] at answered
      cases answered
      exact .unmade begun ended aborted
  | true =>
    rcases committed : collection.transactions.commit tx done with ⟨cause | _, final⟩
    · rw [change_uncommitted begunHere ended committed] at answered
      cases answered
      exact .uncommitted begun ended committed
    · rw [change_made begunHere ended committed] at answered
      cases answered
      exact .made begun ended committed

def changeIn (collection : Collection σ τ α ι) (tx : τ) : Change α ι → QueryAction σ Bool
  | .put record => collection.insertIn tx record
  | .drop id => collection.removeIn tx id

def changeAlone (collection : Collection σ τ α ι) : Change α ι → QueryAction σ Bool
  | .put record => collection.insert record
  | .drop id => collection.remove id

theorem changeAlone_eq (change : Change α ι) :
    collection.changeAlone change = collection.change fun tx => collection.changeIn tx change := by
  cases change <;> rfl

/-- What a change answers on a catalog: whether there was anything to change, unless the record to
add cannot be projected. -/
def answerTo (collection : Collection σ τ α ι) (catalog : Catalog α ι) :
    Change α ι → Except QueryError Bool
  | .put record =>
    (collection.project record).map fun _ => (catalog.records (Record.id record)).isNone
  | .drop id => .ok (catalog.records id).isSome

/-- A change inside a transaction gives the answer of the catalog and leaves a catalog in which the
change is made, or not, as it was answered. -/
theorem WritesCatalog.changeIn {Writable : α → Prop} {Shows : σ → Catalog α ι → Prop}
    (writes : WritesCatalog collection tx Writable Shows) {catalog : Catalog α ι}
    {changes : List (Change α ι)} (distinct : (collection.fields.map IndexedField.name).Nodup)
    (reflects : catalog.Reflects collection.fields changes) (shows : Shows world catalog)
    (change : Change α ι) (writable : ∀ record, change = .put record → Writable record) :
    ∃ next after, collection.changeIn tx change world = (collection.answerTo catalog change, next) ∧
      Shows next after ∧
      after.Reflects collection.fields (change.tried (collection.answerTo catalog change) changes) := by
  cases change with
  | put record =>
    rcases collection.project_cases record with
      ⟨entries, projects, projected⟩ | ⟨_, _, reason, _, failed⟩
    · cases stored : catalog.records (Record.id record) with
      | some held =>
        obtain ⟨next, success, shown⟩ :=
          writes.insertIn_taken shows (writable record rfl) projected stored
        have answer : collection.answerTo catalog (.put record) = .ok false := by
          rw [answerTo, projected, stored]; rfl
        rw [answer]
        exact ⟨next, catalog, success, shown, reflects⟩
      | none =>
        obtain ⟨next, success, shown⟩ :=
          writes.insertIn_free shows (writable record rfl) projected projects stored
        have answer : collection.answerTo catalog (.put record) = .ok true := by
          rw [answerTo, projected, stored]; rfl
        rw [answer]
        exact ⟨next, _, success, shown, reflects.put distinct stored projects⟩
    · have answer : collection.answerTo catalog (.put record) = .error (.projection reason) := by
        rw [answerTo, failed]; rfl
      rw [answer]
      exact ⟨world, catalog, insertIn_unprojected failed, shows, reflects⟩
  | drop id =>
    cases stored : catalog.records id with
    | none =>
      obtain ⟨next, success, shown⟩ := writes.removeIn_absent shows stored
      have answer : collection.answerTo catalog (.drop id) = .ok false := by
        rw [answerTo, stored]; rfl
      rw [answer]
      rw [Catalog.setRecord_of_none stored] at shown
      exact ⟨next, catalog, success, shown, reflects⟩
    | some record =>
      obtain ⟨entries, projects, projected⟩ :=
        reflects.project_stored stored
      obtain ⟨next, success, shown⟩ := writes.removeIn_found shows stored projected projects
      have answer : collection.answerTo catalog (.drop id) = .ok true := by
        rw [answerTo, stored]; rfl
      rw [answer]
      exact ⟨next, _, success, shown, reflects.drop distinct stored projects⟩

end

end DocStore.Collection
