import DocStore.Proofs.Collection.Indexes
import DocStore.Proofs.Collection.Update
import DocStore.Proofs.Store.Watched

namespace DocStore

/-- One of the leaf stores of a collection. -/
inductive Place where
  | records
  | index (name : IndexName)
deriving DecidableEq, Repr

/-- One deed in the use of the stores of a collection, with what came of it. -/
inductive Deed (τ α ι : Type) where
  | begun (place : Place) (outcome : Except StoreError τ)
  | begunRead (place : Place) (outcome : Except StoreError τ)
  | asked (tx : τ) (request : Request ι α) (outcome : Except StoreError (Reply α))
  | askedIndex (name : IndexName) (tx : τ) (request : Request IndexValue (IdSet ι))
      (outcome : Except StoreError (Reply (IdSet ι)))
  | listed (place : Place) (outcome : Except StoreError Unit)
  | committed (tx : τ) (outcome : Except StoreError Unit)
  | aborted (tx : τ) (outcome : Except StoreError Unit)
  | released (tx : τ)

namespace Deed

variable {τ α ι : Type}

def begins : Deed τ α ι → Bool
  | .begun .. | .begunRead .. => true
  | _ => false

def ends? : Deed τ α ι → Option τ
  | .committed tx _ | .aborted tx _ | .released tx => some tx
  | _ => none

def onIndex : Deed τ α ι → Bool
  | .askedIndex .. => true
  | .begun place _ | .begunRead place _ | .listed place _ => place != .records
  | _ => false

def failure? : Deed τ α ι → Option StoreError
  | .begun _ (.error error) | .begunRead _ (.error error) | .asked _ _ (.error error)
  | .askedIndex _ _ _ (.error error) | .listed _ (.error error) | .committed _ (.error error)
  | .aborted _ (.error error) => some error
  | _ => none

def indexNotes (name : IndexName) : Watched.Notes (Deed τ α ι) τ IndexValue (IdSet ι) :=
  ⟨.begun (.index name), .begunRead (.index name), .askedIndex name, .listed (.index name)⟩

end Deed

namespace Change

variable {α ι : Type} [Record α ι]

/-- What a change asks of the primary store. -/
def request : Change α ι → Request ι α
  | .put record => .add (Record.id record) record
  | .drop id => .remove id

/-- The record that was added or removed, if the primary store replies that one was. -/
def affected? : Change α ι → Reply α → Option α
  | .put record, .added true => some record
  | .drop _, .found held => held
  | _, _ => none

/-- Whether the primary store replies that the id is taken already or has no record to remove. -/
def unneeded : Change α ι → Reply α → Bool
  | .put _, .added added => !added
  | .drop _, .found held => held.isNone
  | _, _ => false

omit [Record α ι] in
theorem affected?_of_unneeded {change : Change α ι} {reply : Reply α}
    (idle : change.unneeded reply = true) : change.affected? reply = none := by
  cases change with
  | put record =>
    cases reply with
    | added added => cases added <;> simp_all [unneeded, affected?]
    | _ => rfl
  | drop id =>
    cases reply with
    | found held => cases held <;> simp_all [unneeded, affected?]
    | _ => rfl

/-- What a change asks of an index whose field has a certain value. -/
def update [DecidableEq ι] : Change α ι → IndexValue → Request IndexValue (IdSet ι)
  | .put record, value =>
    .addOrUpdate value (.single (Record.id record)) fun _ set => set.insert (Record.id record)
  | .drop id, value => .addOrUpdate value .empty fun _ set => set.erase id

end Change

namespace Collection

variable {σ τ α ι : Type}

/-- The collection with all use of its stores written down. -/
def watched (collection : Collection σ τ α ι) : Collection (Watched (Deed τ α ι) σ) τ α ι where
  transactions :=
    { id := collection.transactions.id
      commit := fun tx => Watched.act (.committed tx) (collection.transactions.commit tx)
      abort := fun tx => Watched.act (.aborted tx) (collection.transactions.abort tx)
      release := fun tx world =>
        ⟨world.deeds ++ [.released tx], collection.transactions.release tx world.inner⟩ }
  records := Watched.store ⟨.begun .records, .begunRead .records, .asked, .listed .records⟩
    collection.records
  indexes := ⟨collection.indexes.stores.map fun entry =>
    (entry.1, Watched.store (Deed.indexNotes entry.1) entry.2)⟩
  fields := collection.fields
  lookups := collection.lookups

/-- What is written down of the updates of some index entries: they are made in turn, up to the first
failure. -/
inductive Updated (tx : τ) (request : IndexValue → Request IndexValue (IdSet ι)) :
    List (IndexName × IndexValue) → List (Deed τ α ι) → Except QueryError Unit → Prop
  | none : Updated tx request [] [] (.ok ())
  | failed {entry rest error} : Updated tx request (entry :: rest)
      [.askedIndex entry.1 tx (request entry.2) (.error error)] (.error (.store error))
  | next {entry rest reply deeds outcome} (later : Updated tx request rest deeds outcome) :
      Updated tx request (entry :: rest)
        (.askedIndex entry.1 tx (request entry.2) (.ok reply) :: deeds) outcome

namespace Updated

variable {tx : τ} {request : IndexValue → Request IndexValue (IdSet ι)}
  {entries : List (IndexName × IndexValue)} {deeds : List (Deed τ α ι)} {outcome : Except QueryError Unit}

theorem asked (updated : Updated tx request entries deeds outcome) :
    ∀ deed ∈ deeds, ∃ name request outcome, deed = .askedIndex name tx request outcome := by
  induction updated with
  | none => simp
  | failed => simp
  | next _ ih => simpa using ih

theorem asked_first (updated : Updated tx request entries deeds outcome) {first : Deed τ α ι} {other : τ}
    {call : Request ι α} {reply : Except StoreError (Reply α)}
    (member : .asked other call reply ∈ first :: deeds) : .asked other call reply = first := by
  rcases List.mem_cons.mp member with same | later
  · exact same
  · obtain ⟨_, _, _, asked⟩ := updated.asked _ later
    cases asked

theorem eq_ok_iff (updated : Updated tx request entries deeds outcome) :
    outcome = .ok () ↔ List.Forall₂ (fun entry deed => ∃ reply,
      deed = Deed.askedIndex entry.1 tx (request entry.2) (.ok reply)) entries deeds := by
  induction updated with
  | none => simp
  | failed => simp
  | next _ ih => simpa using ih

/-- A failure among the updates is the last of them. -/
theorem failed_last (updated : Updated tx request entries deeds outcome)
    {before after : List (Deed τ α ι)} {deed : Deed τ α ι} {error : StoreError}
    (here : deeds = before ++ deed :: after) (failed : deed.failure? = some error) :
    after = [] ∧ outcome = .error (.store error) := by
  induction updated generalizing before with
  | none => simp at here
  | failed =>
    cases before with
    | nil =>
      cases here
      cases failed
      exact ⟨rfl, rfl⟩
    | cons first before => simp at here
  | next _ ih =>
    cases before with
    | nil =>
      cases here
      cases failed
    | cons first before => exact ih (List.cons.inj here).2

end Updated

/-- What is written down of a change inside a transaction. -/
inductive Changed [DecidableEq ι] [Record α ι] (fields : List (IndexedField α)) (change : Change α ι)
    (tx : τ) : List (Deed τ α ι) → Except QueryError Bool → Prop
  | unprojected {reason} : Changed fields change tx [] (.error (.projection reason))
  | failed {error} :
      Changed fields change tx [.asked tx change.request (.error error)] (.error (.store error))
  | unneeded {reply} (idle : change.unneeded reply = true) :
      Changed fields change tx [.asked tx change.request (.ok reply)] (.ok false)
  | stranded {reply record reason} {field : IndexedField α}
      (affected : change.affected? reply = some record) (declared : field ∈ fields)
      (failed : field.project record = .error reason) :
      Changed fields change tx [.asked tx change.request (.ok reply)] (.error (.projection reason))
  | listed {reply record entries deeds outcome answer}
      (affected : change.affected? reply = some record)
      (projects : ProjectsTo fields record entries)
      (updated : Updated tx change.update entries deeds outcome)
      (answers : answer = outcome.map fun _ => true) :
      Changed fields change tx (.asked tx change.request (.ok reply) :: deeds) answer

/-- What is written down of the end of a transaction, by how the change inside it went. -/
inductive Closed (tx : τ) : Except QueryError Bool → Deed τ α ι → Except QueryError Bool → Prop
  | committed : Closed tx (.ok true) (.committed tx (.ok ())) (.ok true)
  | uncommitted {error} : Closed tx (.ok true) (.committed tx (.error error)) (.error (.store error))
  | aborted : Closed tx (.ok false) (.aborted tx (.ok ())) (.ok false)
  | unaborted {error} : Closed tx (.ok false) (.aborted tx (.error error)) (.error (.store error))
  | released {error} : Closed tx (.error error) (.released tx) (.error error)

namespace Closed

variable {tx other : τ} {inside answer : Except QueryError Bool} {last : Deed τ α ι}

theorem ends (closed : Closed tx inside last answer) :
    last.ends? = some tx ∧ last.begins = false ∧ last.onIndex = false := by
  cases closed <;> exact ⟨rfl, rfl, rfl⟩

theorem committed_iff (closed : Closed tx inside last answer) :
    (∃ outcome, .committed other outcome = last) ↔ other = tx ∧ inside = .ok true := by
  cases closed <;> simp

theorem aborted_iff (closed : Closed tx inside last answer) :
    (∃ outcome, .aborted other outcome = last) ↔ other = tx ∧ inside = .ok false := by
  cases closed <;> simp

theorem released_iff (closed : Closed tx inside last answer) :
    .released other = last ↔ other = tx ∧ inside ≠ .ok true ∧ inside ≠ .ok false := by
  cases closed <;> simp

theorem made_iff (closed : Closed tx inside last answer) :
    answer = .ok true ↔ ∃ other, .committed other (.ok ()) = last := by
  cases closed <;> simp

theorem unmade_iff (closed : Closed tx inside last answer) :
    answer = .ok false ↔ ∃ other, .aborted other (.ok ()) = last := by
  cases closed <;> simp

theorem failed (closed : Closed tx inside last answer) {error : StoreError} :
    last.failure? = some error → answer = .error (.store error) := by
  intro failed
  cases closed <;> cases failed <;> rfl

end Closed

/-- What is written down of a change in a transaction of its own. -/
inductive ChangedAlone [DecidableEq ι] [Record α ι] (fields : List (IndexedField α))
    (change : Change α ι) : List (Deed τ α ι) → Except QueryError Bool → Prop
  | unbegun {error} :
      ChangedAlone fields change [.begun .records (.error error)] (.error (.store error))
  | ended {tx body inside last answer} (changed : Changed fields change tx body inside)
      (closed : Closed tx inside last answer) :
      ChangedAlone fields change (.begun .records (.ok tx) :: (body ++ [last])) answer

section

variable {collection : Collection σ τ α ι} {tx : τ} {entries : List (IndexName × IndexValue)}

theorem get?_watched (name : IndexName) : collection.watched.indexes.get? name =
    (collection.indexes.get? name).map (Watched.store (Deed.indexNotes name)) := by
  simp only [Indexes.get?, Collection.watched, List.find?_map, Option.map_map]
  change (collection.indexes.stores.find? fun entry => entry.1 == name).map _ = _
  cases here : collection.indexes.stores.find? fun entry => entry.1 == name with
  | none => rfl
  | some entry =>
    have named : entry.1 = name := by simpa using List.find?_some here
    simp [named]

theorem index_watched {name : IndexName} {store : LeafStore σ τ IndexValue (IdSet ι)}
    (found : collection.index name = .ok store) :
    collection.watched.index name = .ok (Watched.store (Deed.indexNotes name) store) := by
  cases here : collection.indexes.get? name with
  | none =>
    rw [index, here] at found
    cases found
  | some held =>
    rw [index, here] at found
    cases found
    rw [index, get?_watched, here]
    rfl

private theorem logs_update {entry : IndexName × IndexValue}
    {store : LeafStore σ τ IndexValue (IdSet ι)} (found : collection.index entry.1 = .ok store)
    (first : IdSet ι) (update : IdSet ι → IdSet ι) :
    Watched.Logs (collection.watched.reviseIndex tx first update entry)
      (collection.reviseIndex tx first update entry)
      (Updated tx (fun value => .addOrUpdate value first fun _ set => update set) [entry]) := by
  rw [reviseIndex, reviseIndex, found, index_watched found]
  refine (Watched.logs_act_bind (fun outcome => Deed.askedIndex entry.1 tx _ (outcome.map .value))
    (store.addOrUpdate tx entry.2 first fun _ set => update set) QueryError.store
      fun _ => Watched.logs_ofExcept (.ok ())).mono ?_
  rintro deeds outcome (⟨error, rfl, rfl⟩ | ⟨set, _, rfl, rfl, rfl⟩)
  · exact .failed
  · exact .next .none

private theorem logs_forEntries
    {watched : IndexName × IndexValue → QueryAction (Watched (Deed τ α ι) σ) Unit}
    {plain : IndexName × IndexValue → QueryAction σ Unit}
    {request : IndexValue → Request IndexValue (IdSet ι)}
    (acts : ∀ entry ∈ entries, Watched.Logs (watched entry) (plain entry) (Updated tx request [entry])) :
    Watched.Logs (forEntries watched entries) (forEntries plain entries)
      (Updated tx request entries) := by
  induction entries with
  | nil =>
    refine (Watched.logs_ofExcept (.ok ())).mono ?_
    rintro _ _ ⟨rfl, rfl⟩
    exact .none
  | cons entry rest ih =>
    refine ((acts entry (by simp)).bind fun _ _ _ =>
      ih fun other member => acts other (by simp [member])).mono ?_
    rintro deeds outcome (⟨error, one, rfl⟩ | ⟨_, _, second, rfl, one, others⟩)
    · cases one with
      | failed => exact .failed
      | next later => cases later
    · cases one with
      | next later =>
        cases later
        exact .next others

variable [DecidableEq ι] [Record α ι]

/-- The updates of all entries of a record and the answer after them. -/
private theorem logs_listing {change : Change α ι} {record : α}
    {watched : IndexName × IndexValue → QueryAction (Watched (Deed τ α ι) σ) Unit}
    {plain : IndexName × IndexValue → QueryAction σ Unit}
    (acts : ∀ entry, entry.1 ∈ collection.indexNames →
      Watched.Logs (watched entry) (plain entry) (Updated tx change.update [entry]))
    (projects : ProjectsTo collection.fields record entries) :
    Watched.Logs (do forEntries watched entries; pure true) (do forEntries plain entries; pure true)
      fun deeds answer => ∃ outcome, Updated tx change.update entries deeds outcome ∧
        answer = outcome.map fun _ => true := by
  refine ((logs_forEntries fun entry member => acts entry (projects.declared entry member)).bind fun _ _ _ =>
    Watched.logs_ofExcept (.ok true)).mono ?_
  rintro _ answer (⟨error, updated, rfl⟩ | ⟨_, deeds, _, rfl, updated, rfl, rfl⟩)
  · exact ⟨_, updated, rfl⟩
  · rw [List.append_nil]
    exact ⟨_, updated, rfl⟩

omit [DecidableEq ι] [Record α ι] in
private theorem add_watched {id : ι} {record : α} {outcome : Except StoreError Bool} {world next : σ}
    (ended : collection.records.add tx id record world = (outcome, next)) (past : List (Deed τ α ι)) :
    collection.watched.records.add tx id record ⟨past, world⟩ =
      (outcome, ⟨past ++ [.asked tx (.add id record) (outcome.map .added)], next⟩) :=
  Watched.act_apply (fun outcome => Deed.asked tx (.add id record) (outcome.map .added)) ended past

omit [DecidableEq ι] [Record α ι] in
private theorem remove_watched {id : ι} {outcome : Except StoreError (Option α)} {world next : σ}
    (ended : collection.records.remove tx id world = (outcome, next)) (past : List (Deed τ α ι)) :
    collection.watched.records.remove tx id ⟨past, world⟩ =
      (outcome, ⟨past ++ [.asked tx (.remove id) (outcome.map .found)], next⟩) :=
  Watched.act_apply (fun outcome => Deed.asked tx (.remove id) (outcome.map .found)) ended past

variable (opened : ∀ name ∈ collection.indexNames, ∃ store, collection.index name = .ok store)

include opened

private theorem logs_insertIn (record : α) :
    Watched.Logs (collection.watched.insertIn tx record) (collection.insertIn tx record)
      (Changed collection.fields (.put record) tx) := by
  intro past world
  rcases collection.project_cases record with
    ⟨entries, projects, projected⟩ | ⟨_, _, reason, _, failed⟩
  · rcases asked : collection.records.add tx (Record.id record) record world with ⟨error | added, next⟩
    · rw [insertIn_failed projected asked]
      exact ⟨_, insertIn_failed projected (add_watched asked past), .failed⟩
    cases added with
    | false =>
      rw [insertIn_of_present projected asked]
      exact ⟨_, insertIn_of_present projected (add_watched asked past), .unneeded (by rfl)⟩
    | true =>
      have acts (entry : IndexName × IndexValue) (declared : entry.1 ∈ collection.indexNames) :
          Watched.Logs (collection.watched.addToIndex tx (Record.id record) entry)
            (collection.addToIndex tx (Record.id record) entry)
            (Updated tx (Change.put record).update [entry]) := by
        obtain ⟨store, found⟩ := opened entry.1 declared
        exact logs_update found _ _
      have added := add_watched asked past
      obtain ⟨deeds, same, outcome, updated, answer⟩ := logs_listing acts projects
        (past ++ [.asked tx (Change.put record).request (.ok (.added true))]) next
      rw [insertIn_of_added projected asked]
      refine ⟨.asked tx (Change.put record).request (.ok (.added true)) :: deeds, ?_,
        .listed rfl projects updated answer⟩
      have start : collection.watched.insertIn tx record ⟨past, world⟩ = _ :=
        insertIn_of_added projected added
      rw [List.append_cons]
      exact start.trans same
  · rw [insertIn_unprojected failed]
    exact ⟨[], by rw [List.append_nil]; exact insertIn_unprojected failed, .unprojected⟩

private theorem logs_removeIn (id : ι) :
    Watched.Logs (collection.watched.removeIn tx id) (collection.removeIn tx id)
      (Changed collection.fields (.drop id) tx) := by
  intro past world
  rcases asked : collection.records.remove tx id world with ⟨error | held, next⟩
  · rw [removeIn_failed asked]
    exact ⟨_, removeIn_failed (remove_watched asked past), .failed⟩
  cases held with
  | none =>
    rw [removeIn_of_absent asked]
    exact ⟨_, removeIn_of_absent (remove_watched asked past), .unneeded (by rfl)⟩
  | some record =>
    have removed := remove_watched asked past
    rcases collection.project_cases record with
      ⟨entries, projects, projected⟩ | ⟨field, declared, reason, failed, stranded⟩
    · have acts (entry : IndexName × IndexValue) (declared : entry.1 ∈ collection.indexNames) :
          Watched.Logs (collection.watched.removeFromIndex tx id entry)
            (collection.removeFromIndex tx id entry)
            (Updated tx (Change.drop id : Change α ι).update [entry]) := by
        obtain ⟨store, found⟩ := opened entry.1 declared
        exact logs_update found _ _
      obtain ⟨deeds, same, outcome, updated, answer⟩ := logs_listing acts projects
        (past ++ [.asked tx (.remove id) (.ok (.found (some record)))]) next
      rw [removeIn_of_removed asked projected]
      refine ⟨.asked tx (.remove id) (.ok (.found (some record))) :: deeds, ?_,
        .listed rfl projects updated answer⟩
      have start : collection.watched.removeIn tx id ⟨past, world⟩ = _ :=
        removeIn_of_removed removed projected
      rw [List.append_cons]
      exact start.trans same
    · rw [removeIn_unprojected asked stranded]
      exact ⟨_, removeIn_unprojected removed stranded, .stranded (by rfl) declared failed⟩

/-- Inside a transaction a change asks the primary store once and, if that took effect, each index once
in the order of the fields. -/
theorem logs_changeIn (change : Change α ι) :
    Watched.Logs (collection.watched.changeIn tx change) (collection.changeIn tx change)
      (Changed collection.fields change tx) := by
  cases change with
  | put record => exact logs_insertIn opened record
  | drop id => exact logs_removeIn opened id

/-- A change in a transaction of its own begins it first and ends it last, as the change went. -/
theorem logs_changeAlone (change : Change α ι) :
    Watched.Logs (collection.watched.changeAlone change) (collection.changeAlone change)
      (ChangedAlone collection.fields change) := by
  intro past world
  rw [changeAlone_eq, changeAlone_eq]
  have begins {outcome middle} (begun : collection.records.begin world = (outcome, middle)) :
      collection.watched.records.begin ⟨past, world⟩ =
        (outcome, ⟨past ++ [.begun .records outcome], middle⟩) :=
    Watched.act_apply (Deed.begun .records) begun past
  have inside {tx middle outcome done} (ended : collection.changeIn tx change middle = (outcome, done)) :
      ∃ body, collection.watched.changeIn tx change ⟨past ++ [.begun .records (.ok tx)], middle⟩ =
          (outcome, ⟨past ++ [.begun .records (.ok tx)] ++ body, done⟩) ∧
        Changed collection.fields change tx body outcome := by
    obtain ⟨body, same, changed⟩ :=
      logs_changeIn opened change (past ++ [Deed.begun .records (.ok tx)]) middle
    rw [ended] at same changed
    exact ⟨body, same, changed⟩
  have lined (first last : Deed τ α ι) (body : List (Deed τ α ι)) :
      past ++ (first :: (body ++ [last])) = past ++ [first] ++ body ++ [last] := by simp
  rcases answered : collection.change (fun tx => collection.changeIn tx change) world with ⟨answer, next⟩
  cases change_ends answered with
  | unbegun failed => exact ⟨_, change_unbegun (begins failed), .unbegun⟩
  | failed begun failed =>
    obtain ⟨body, same, changed⟩ := inside failed
    have watched : collection.watched.change (fun tx => collection.watched.changeIn tx change)
        ⟨past, world⟩ = _ := change_failed (Action.mapError_of_ok (begins begun)) same
    refine ⟨_, ?_, .ended changed .released⟩
    rw [lined]
    exact watched
  | unmade begun unmade aborted =>
    obtain ⟨body, same, changed⟩ := inside unmade
    refine ⟨_, ?_, .ended changed .aborted⟩
    rw [lined]
    exact change_unmade (Action.mapError_of_ok (begins begun)) same
      (Watched.act_apply (Deed.aborted _) aborted _)
  | unaborted begun unmade failed =>
    obtain ⟨body, same, changed⟩ := inside unmade
    refine ⟨_, ?_, .ended changed .unaborted⟩
    rw [lined]
    exact change_unaborted (Action.mapError_of_ok (begins begun)) same
      (Watched.act_apply (Deed.aborted _) failed _)
  | made begun made committed =>
    obtain ⟨body, same, changed⟩ := inside made
    refine ⟨_, ?_, .ended changed .committed⟩
    rw [lined]
    exact change_made (Action.mapError_of_ok (begins begun)) same
      (Watched.act_apply (Deed.committed _) committed _)
  | uncommitted begun made failed =>
    obtain ⟨body, same, changed⟩ := inside made
    refine ⟨_, ?_, .ended changed .uncommitted⟩
    rw [lined]
    exact change_uncommitted (Action.mapError_of_ok (begins begun)) same
      (Watched.act_apply (Deed.committed _) failed _)

end

end Collection

end DocStore
