import DocStore.Proofs.Collection.Stored
import DocStore.Proofs.Database.Rows
import DocStore.Proofs.Store.Request
import DocStore.Record.Numbered
import DocStore.Record.Person

namespace DocStore

theorem Action.bind_eq_error {ε σ α β : Type} {action : Action ε σ α} {rest : α → Action ε σ β}
    {error : ε} {world next : σ} (failed : (action >>= rest) world = (.error error, next)) :
    action world = (.error error, next) ∨
      ∃ value middle, action world = (.ok value, middle) ∧ rest value middle = (.error error, next) := by
  rcases ended : action world with ⟨cause | value, middle⟩
  · rw [bind_of_error ended] at failed
    cases failed
    exact .inl rfl
  · rw [bind_of_ok ended] at failed
    exact .inr ⟨value, middle, rfl, failed⟩

namespace Database

variable {κ ν : Type} {table : String} {keys : Codec κ} {values : Codec ν} {db next : Database}
  {tx : Nat} {contents : Contents} {error : StoreError} {state : OpenTransaction}

/-- All tables as an open transaction sees them. -/
def seen? (db : Database) (tx : Nat) : Option Contents :=
  (db.opened.get? tx).map fun state => (db.viewOf state).contents

/-- The database after a look of a transaction, which sees from then on what it saw. -/
def looked (db : Database) (tx : Nat) : Database :=
  match db.opened.get? tx with
  | none => db
  | some state => { db with opened := db.opened.put tx { state with view := some (db.viewOf state) } }

/-- Nothing has happened but that a transaction may have looked at what it sees. -/
def Untouched (tx : Nat) (before after : Database) : Prop := after = before ∨ after = before.looked tx

theorem seen?_eq_some : db.seen? tx = some contents ↔
    ∃ state, db.opened.get? tx = some state ∧ (db.viewOf state).contents = contents := by
  simp [seen?]

theorem looked_of_opened (opened : db.opened.get? tx = some state) :
    db.looked tx =
      { db with opened := db.opened.put tx { state with view := some (db.viewOf state) } } := by
  simp only [looked, opened]

theorem opened_looked (opened : db.opened.get? tx = some state) :
    (db.looked tx).opened.get? tx = some { state with view := some (db.viewOf state) } := by
  simp [looked_of_opened opened]

theorem looked_looked (db : Database) (tx : Nat) : (db.looked tx).looked tx = db.looked tx := by
  cases opened : db.opened.get? tx with
  | none =>
    have same : db.looked tx = db := by simp only [looked, opened]
    rw [same, same]
  | some state =>
    rw [looked_of_opened (opened_looked opened), looked_of_opened opened]
    simp only [Table.put_put, viewOf, Option.getD_some]

theorem seen?_looked (db : Database) (tx : Nat) : (db.looked tx).seen? tx = db.seen? tx := by
  cases opened : db.opened.get? tx with
  | none => simp only [looked, opened]
  | some state =>
    rw [seen?, opened_looked opened, seen?, opened]
    rfl

theorem untouched_trans {first second third : Database} (former : Untouched tx first second)
    (latter : Untouched tx second third) : Untouched tx first third := by
  rcases former with rfl | rfl
  · exact latter
  · rcases latter with rfl | rfl
    · exact .inr rfl
    · exact .inr (looked_looked first tx)

theorem Untouched.seen? (untouched : Untouched tx db next) : next.seen? tx = db.seen? tx := by
  rcases untouched with rfl | rfl
  · rfl
  · exact seen?_looked db tx

/-- What a transaction publishes when it is committed: what it sees if it has changed that, else what was
committed before. -/
theorem commit_opened (opened : db.opened.get? tx = some state) :
    ∃ after, commit tx db = (.ok (), after) ∧
      after.committed.contents =
        if state.changed then (db.viewOf state).contents else db.committed.contents := by
  simp only [commit, opened]
  split
  case h_1 view changed sees =>
    refine ⟨_, rfl, ?_⟩
    rw [if_pos changed, viewOf, sees, Option.getD_some]
  case h_2 plain =>
    refine ⟨_, rfl, ?_⟩
    split
    case isTrue changed =>
      cases sees : state.view with
      | none => rw [viewOf, sees, Option.getD_none]
      | some view => exact (plain view changed sees).elim
    case isFalse => rfl

/-- A look makes no difference to what is committed. -/
theorem Untouched.commit (untouched : Untouched tx db next) (seen : db.seen? tx = some contents) :
    ∃ before after, commit tx db = (.ok (), before) ∧ commit tx next = (.ok (), after) ∧
      after.committed.contents = before.committed.contents := by
  obtain ⟨state, opened, _⟩ := seen?_eq_some.mp seen
  obtain ⟨before, committed, published⟩ := commit_opened opened
  rcases untouched with rfl | rfl
  · exact ⟨before, before, committed, committed, rfl⟩
  · obtain ⟨after, committedToo, publishedToo⟩ := commit_opened (opened_looked opened)
    refine ⟨before, after, committed, committedToo, ?_⟩
    rw [published, publishedToo, looked_of_opened opened]
    rfl

section

variable {α β : Type} {action : StoreAction Database α} {rest : α → StoreAction Database β}

/-- Whether it succeeds or fails, the action does no more than to look. -/
def Looks (tx : Nat) (action : StoreAction Database α) : Prop := ∀ db, Untouched tx db (action db).2

/-- Where the action fails, it has done no more than to look. -/
def FailsUntouched (tx : Nat) (action : StoreAction Database α) : Prop :=
  ∀ db error next, action db = (.error error, next) → Untouched tx db next

theorem Looks.of_ended (looks : Looks tx action) {outcome : Except StoreError α}
    (ended : action db = (outcome, next)) : Untouched tx db next := by
  have led := looks db
  rw [ended] at led
  exact led

theorem Looks.fails (looks : Looks tx action) : FailsUntouched tx action :=
  fun _ _ _ failed => looks.of_ended failed

theorem Looks.bind (looks : Looks tx action) (further : ∀ value, Looks tx (rest value)) :
    Looks tx (action >>= rest) := by
  intro db
  rcases ended : action db with ⟨error | value, middle⟩
  · rw [Action.bind_of_error ended]
    exact looks.of_ended ended
  · rw [Action.bind_of_ok ended]
    exact untouched_trans (looks.of_ended ended) (further value middle)

theorem Looks.bind_fails (looks : Looks tx action)
    (further : ∀ value, FailsUntouched tx (rest value)) : FailsUntouched tx (action >>= rest) := by
  intro db error next failed
  rcases Action.bind_eq_error failed with first | ⟨value, middle, first, second⟩
  · exact looks.of_ended first
  · exact untouched_trans (looks.of_ended first) (further value middle error next second)

theorem FailsUntouched.map (fails : FailsUntouched tx action) (f : α → β) :
    FailsUntouched tx (f <$> action) := by
  intro db error next failed
  rw [Action.map_apply] at failed
  rcases ended : action db with ⟨cause | value, middle⟩
  · rw [ended] at failed
    cases failed
    exact fails _ _ _ ended
  · rw [ended] at failed
    cases failed

theorem looks_pure (value : α) : Looks tx (pure value : StoreAction Database α) := fun _ => .inl rfl

theorem looks_throw (cause : StoreError) : Looks tx (throw cause : StoreAction Database α) :=
  fun _ => .inl rfl

theorem looks_written (codec : Codec α) (value : α) : Looks tx (written codec value) :=
  fun _ => .inl rfl

theorem looks_readable (codec : Codec α) (text : String) : Looks tx (readable codec text) := by
  unfold readable
  split
  · exact looks_pure _
  · exact looks_throw _

end

theorem looks_select (key : String) : Looks tx (select table tx key) := by
  intro db
  cases opened : db.opened.get? tx with
  | none =>
    rw [select_unopened opened]
    exact .inl rfl
  | some state =>
    cases present : (db.viewOf state).contents.get? (foldName table) with
    | none =>
      rw [select_missing opened present]
      exact .inl rfl
    | some rows =>
      rw [select_open opened present]
      exact .inr (looked_of_opened opened).symm

theorem looks_find (key : κ) : Looks tx (find table keys values tx key) := by
  refine (looks_written keys key).bind fun text => (looks_select text).bind fun row => ?_
  cases row with
  | none => exact looks_pure none
  | some text => exact (looks_readable values text).bind fun _ => looks_pure _

theorem written_eq_error {α : Type} {codec : Codec α} {value : α}
    (failed : written codec value db = (.error error, next)) : error ≠ .codec .unreadable := by
  unfold written at failed
  cases encoded : codec.encode value with
  | error reason =>
    rw [encoded] at failed
    cases failed
    nofun
  | ok text =>
    rw [encoded] at failed
    cases failed

theorem readable_eq_error {α : Type} {codec : Codec α} {text : String}
    (failed : readable codec text db = (.error error, next)) :
    error = .codec .unreadable ∧ next = db ∧ codec.decode? text = none := by
  unfold readable at failed
  cases decoded : codec.decode? text with
  | some value =>
    rw [decoded] at failed
    cases failed
  | none =>
    rw [decoded] at failed
    cases failed
    exact ⟨rfl, rfl, rfl⟩

theorem select_eq_ok {key : String} {row : Option String} (seen : db.seen? tx = some contents)
    (selected : select table tx key db = (.ok row, next)) :
    row = textAt? contents (foldName table, key) := by
  obtain ⟨state, opened, rfl⟩ := seen?_eq_some.mp seen
  cases present : (db.viewOf state).contents.get? (foldName table) with
  | none =>
    rw [select_missing opened present] at selected
    cases selected
  | some rows =>
    rw [select_open opened present] at selected
    cases selected
    simp [textAt?, present]

/-- A lookup is never refused for the text of a value. -/
theorem select_eq_error {key : String} (failed : select table tx key db = (.error error, next)) :
    ∀ cause, error ≠ .codec cause := by
  unfold select at failed
  split at failed
  · cases failed
    nofun
  · dsimp only at failed
    split at failed
    · cases failed
      nofun
    · cases failed

/-- A change that is refused is not made, and the reason is never the text of a value. -/
theorem modify_eq_error {α : Type} {change : Rows → α × Option Rows}
    (failed : modify table tx change db = (.error error, next)) :
    next = db ∧ ∀ cause, error ≠ .codec cause := by
  unfold modify at failed
  split at failed
  · cases failed
    exact ⟨rfl, nofun⟩
  · dsimp only at failed
    split at failed
    · cases failed
      exact ⟨rfl, nofun⟩
    · split at failed
      · cases failed
        exact ⟨rfl, nofun⟩
      · split at failed
        · cases failed
          exact ⟨rfl, nofun⟩
        · cases failed

theorem fails_modify {α : Type} (change : Rows → α × Option Rows) :
    FailsUntouched tx (modify table tx change) :=
  fun _ _ _ failed => .inl (modify_eq_error failed).1

/-- A row that is there is removed from what the transaction sees and will commit. -/
theorem delete_eq_ok {name text : String} (seen : db.seen? tx = some contents)
    (held : textAt? contents (foldName table, name) = some text)
    (deleted : delete table tx name db = (.ok (), next)) :
    next.seen? tx = some (clearText contents (foldName table, name)) ∧
      ∃ after, commit tx next = (.ok (), after) ∧
        after.committed.contents = clearText contents (foldName table, name) := by
  obtain ⟨state, opened, rfl⟩ := seen?_eq_some.mp seen
  obtain ⟨rows, present, found⟩ := Option.bind_eq_some_iff.mp held
  have taken : rows.contains name = true := by rw [Table.contains_eq_isSome, found]; rfl
  have cleared : clearText (db.viewOf state).contents (foldName table, name) =
      (db.viewOf state).contents.put (foldName table) (rows.erase name) := by
    rw [clearText, present, Option.getD_some]
  simp only [delete, modify, opened, present, taken, if_true] at deleted
  split at deleted
  · cases deleted
  · split at deleted
    · cases deleted
    · cases deleted
      rw [cleared]
      have now (state : OpenTransaction) :
          ({ db with opened := db.opened.put tx state } : Database).opened.get? tx = some state := by simp
      obtain ⟨after, committed, published⟩ := commit_opened (now _)
      exact ⟨seen?_eq_some.mpr ⟨_, now _, rfl⟩, after, committed, published⟩

/-- Where a removal fails, either nothing has happened, or the row is gone and its text cannot be read. -/
theorem remove_eq_error {key : κ} (seen : db.seen? tx = some contents)
    (failed : remove table keys values tx key db = (.error error, next)) :
    (error ≠ .codec .unreadable ∧ Untouched tx db next) ∨
      error = .codec .unreadable ∧ ∃ name text middle, keys.encode key = .ok name ∧
        textAt? contents (foldName table, name) = some text ∧ values.decode? text = none ∧
        middle.seen? tx = some contents ∧ delete table tx name middle = (.ok (), next) := by
  rcases Action.bind_eq_error failed with unwritten | ⟨name, start, writes, selects⟩
  · exact .inl ⟨written_eq_error unwritten, (looks_written keys key).of_ended unwritten⟩
  obtain ⟨named, rfl⟩ := written_eq_ok writes
  rcases Action.bind_eq_error selects with unseen | ⟨row, middle, selected, deletes⟩
  · exact .inl ⟨select_eq_error unseen _, (looks_select name).of_ended unseen⟩
  have looked : Untouched tx start middle := (looks_select name).of_ended selected
  have found : row = textAt? contents (foldName table, name) := select_eq_ok seen selected
  cases row with
  | none => cases deletes
  | some text =>
    rcases Action.bind_eq_error deletes with kept | ⟨_, last, deleted, reads⟩
    · obtain ⟨rfl, uncoded⟩ := modify_eq_error kept
      exact .inl ⟨uncoded _, looked⟩
    rcases Action.bind_eq_error reads with unread | ⟨_, _, _, answers⟩
    · obtain ⟨rfl, rfl, undecoded⟩ := readable_eq_error unread
      have sees : middle.seen? tx = some contents := looked.seen?.trans seen
      exact .inr ⟨rfl, name, text, middle, named, found.symm, undecoded, sees, deleted⟩
    · cases answers

/-- No request but a removal fails after it has written. -/
theorem fails_answer {request : Request κ ν} (keeps : ∀ key, request ≠ .remove key) :
    FailsUntouched tx ((store table keys values).answer tx request) := by
  have finds (key : κ) : Looks tx (find table keys values tx key) := looks_find key
  have writesBoth (key : κ) (value : ν) {α β : Type} (change : String → String → Rows → α × Option Rows)
      (after : α → β) : FailsUntouched tx (do
        let key ← written keys key
        let value ← written values value
        let answer ← modify table tx (change key value)
        pure (after answer)) :=
    (looks_written keys key).bind_fails fun _ => (looks_written values value).bind_fails fun _ =>
      (fails_modify _).map after
  cases request with
  | get key =>
    refine FailsUntouched.map ((finds key).bind_fails fun found => ?_) _
    cases found with
    | none => exact (looks_throw _).fails
    | some value => exact (looks_pure value).fails
  | find key => exact (finds key).fails.map _
  | add key value =>
    exact FailsUntouched.map ((looks_written keys key).bind_fails fun _ =>
      (looks_written values value).bind_fails fun _ => fails_modify _) _
  | remove key => exact absurd rfl (keeps key)
  | getOrAdd key build =>
    refine FailsUntouched.map ((finds key).bind_fails fun found => ?_) _
    cases found with
    | some value => exact (looks_pure value).fails
    | none => exact writesBoth key (build key) _ fun _ => build key
  | addOrUpdate key first update =>
    refine FailsUntouched.map ((finds key).bind_fails fun found => ?_) _
    exact writesBoth key _ _ fun _ => _

/-- Whatever the rows of a table hold, an open transaction sees after a request that failed what it saw
before, and commits what it would have committed without the request. The one exception is the removal of
a row whose text cannot be read: that row is gone for the transaction and is gone when it commits, and
every other row is as it was. -/
theorem answer_failed_seen (table : String) (keys : Codec κ) (values : Codec ν) {db next : Database}
    {tx : Nat} {contents : Contents} {request : Request κ ν} {error : StoreError}
    (seen : db.seen? tx = some contents)
    (failed : (store table keys values).answer tx request db = (.error error, next)) :
    ((∀ key, request = .remove key → error ≠ .codec .unreadable) →
      next.seen? tx = some contents ∧
        ∃ before after, commit tx db = (.ok (), before) ∧ commit tx next = (.ok (), after) ∧
          after.committed.contents = before.committed.contents) ∧
    ∀ key, request = .remove key → error = .codec .unreadable →
      ∃ name text, keys.encode key = .ok name ∧
        textAt? contents (foldName table, name) = some text ∧ values.decode? text = none ∧
        next.seen? tx = some (clearText contents (foldName table, name)) ∧
        ∃ after, commit tx next = (.ok (), after) ∧
          after.committed.contents = clearText contents (foldName table, name) := by
  have unseen (untouched : Untouched tx db next) : next.seen? tx = some contents ∧
      ∃ before after, commit tx db = (.ok (), before) ∧ commit tx next = (.ok (), after) ∧
        after.committed.contents = before.committed.contents :=
    ⟨untouched.seen?.trans seen, untouched.commit seen⟩
  by_cases removes : ∃ key, request = .remove key
  · obtain ⟨key, rfl⟩ := removes
    have failed : remove table keys values tx key db = (.error error, next) := by
      rw [LeafStore.answer, Action.map_apply] at failed
      rcases ended : (store table keys values).remove tx key db with ⟨cause | held, later⟩
      · rw [ended] at failed
        cases failed
        exact ended
      · rw [ended] at failed
        cases failed
    rcases remove_eq_error seen failed with
      ⟨readable, untouched⟩ | ⟨rfl, name, text, middle, named, held, undecoded, sees, deleted⟩
    · exact ⟨fun _ => unseen untouched, fun _ _ unreadable => absurd unreadable readable⟩
    · refine ⟨fun readable => absurd rfl (readable key rfl), ?_⟩
      intro other same _
      cases same
      obtain ⟨gone, committed⟩ := delete_eq_ok sees held deleted
      exact ⟨name, text, named, held, undecoded, gone, committed⟩
  · have keeps (key : κ) : request ≠ .remove key := fun same => removes ⟨key, same⟩
    exact ⟨fun _ => unseen (fails_answer keeps db error next failed),
      fun key same => absurd same (keeps key)⟩

def persons : LeafStore Database Nat UInt32 Person := Collection.recordStore "people"

/-- A collection of records with any members, in the same table. -/
def anyRecords : Collection Database Nat Numbered Int64 := Collection.stored "people" []

/-- A database with one record, which is no person, and a transaction that is open. -/
def strangerBegun : Database := (begin (anyRecords.insert ⟨1, []⟩
  (Collection.openStored "people" ([] : List (IndexedField Numbered)) .empty).2).2).2

theorem answer_failed_seen_stranger :
    ∃ contents next, strangerBegun.seen? 2 = some contents ∧
      persons.answer 2 (.get 1) strangerBegun = (.error (.codec .unreadable), next) ∧
      next.seen? 2 = some contents := by
  obtain ⟨contents, seen⟩ : ∃ contents, strangerBegun.seen? 2 = some contents :=
    Option.isSome_iff_exists.mp (by decide +kernel)
  have failed : persons.answer 2 (.get 1) strangerBegun = (.error (.codec .unreadable), _) :=
    Prod.ext (by decide +kernel) rfl
  exact ⟨contents, _, seen, failed, ((answer_failed_seen _ _ _ seen failed).1 nofun).1⟩

/-- A removal can fail and yet be made: the record is gone for the transaction, and when it goes on and
commits the record is gone for good. -/
theorem remove_failed_committed :
    ∃ next after, persons.answer 2 (.remove 1) strangerBegun = (.error (.codec .unreadable), next) ∧
      next.seen? 2 ≠ strangerBegun.seen? 2 ∧ commit 2 next = (.ok (), after) ∧
      textAt? strangerBegun.committed.contents ("people", "1") = some "\x7b\"id\":1\x7d" ∧
      textAt? after.committed.contents ("people", "1") = none := by
  have failed : persons.answer 2 (.remove 1) strangerBegun = (.error (.codec .unreadable), _) :=
    Prod.ext (by decide +kernel) rfl
  have committed : commit 2 (persons.answer 2 (.remove 1) strangerBegun).2 = (.ok (), _) :=
    Prod.ext (by decide +kernel) rfl
  refine ⟨_, _, failed, ?_, committed, ?_, ?_⟩
  · intro same
    have kept : ((persons.answer 2 (.remove 1) strangerBegun).2.seen? 2).bind
        (textAt? · ("people", "1")) = (strangerBegun.seen? 2).bind (textAt? · ("people", "1")) :=
      congrArg (Option.bind · _) same
    exact absurd kept (by decide +kernel)
  · decide +kernel
  · decide +kernel

end Database

end DocStore
