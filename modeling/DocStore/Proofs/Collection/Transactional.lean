import DocStore.Proofs.Collection.Session
import DocStore.Proofs.Collection.Stored

/-! Sessions on a collection in a database. `Sound` is the invariant: the committed tables are those the
published changes call for, and at most one transaction is open, which holds the write lock and sees
what its own changes make of them. Every step keeps it, whether it succeeds or fails. -/
namespace DocStore

open Database (foldName)

namespace Collection

variable {α ι : Type} [DecidableEq ι] [Identifier ι] [Record α ι]

/-- Contents whose tables are what some changes leave of empty ones. -/
def TablesReflect (name : String) (fields : List (IndexedField α)) (contents : Contents)
    (changes : List (Change α ι)) : Prop :=
  ∃ catalog, TablesShow name fields contents catalog ∧ catalog.Reflects fields changes

/-- The tables of a collection agree with each other and hold what some changes leave: the record under
each id is the current one, and an id is in the entry of a value of an index if and only if the record
with that id projects to the value. -/
def TablesAgree (name : String) (fields : List (IndexedField α)) (contents : Contents)
    (changes : List (Change α ι)) : Prop :=
  (∀ id, Database.storedIn? contents name Codec.identifier Codec.record id =
    Change.current? id changes) ∧
  ∀ field ∈ fields, ∀ value id,
    (∃ set : IdSet ι, Database.storedIn? contents (indexTable name field.name) Codec.indexValue
        Codec.idSet value = some set ∧ id ∈ set) ↔
      ∃ record, Database.storedIn? contents name Codec.identifier Codec.record id = some record ∧
        field.project record = .ok value

theorem TablesReflect.agree [LawfulIdentifier ι] {name : String} {fields : List (IndexedField α)}
    {contents : Contents} {changes : List (Change α ι)}
    (reflect : TablesReflect name fields contents changes) :
    TablesAgree name fields contents changes := by
  obtain ⟨catalog, shows, reflects⟩ := reflect
  obtain ⟨rows, present, shown⟩ := shows.records
  have records (id : ι) : Database.storedIn? contents name Codec.identifier Codec.record id =
      catalog.records id := Database.storedIn?_eq present shown (Codec.identifier_keeps id)
  constructor
  · intro id
    rw [records, reflects.records]
  · intro field declared value id
    obtain ⟨entries, presentEntries, shownEntries⟩ := shows.entries field declared
    rw [Database.storedIn?_eq presentEntries shownEntries (Codec.indexValue_keeps value)]
    simp only [records]
    exact reflects.exists_listed_iff declared

/-- A database in which some changes are published and others are pending in open transactions. -/
structure Sound (name : String) (fields : List (IndexedField α))
    (pending : Nat → List (Change α ι)) (published : List (Change α ι)) (db : Database) : Prop where
  committed : TablesReflect name fields db.committed.contents published
  bounded : ∀ tx ∈ db.opened.keys, tx < db.next
  single : ∀ tx ∈ db.opened.keys, ∀ other ∈ db.opened.keys, tx = other
  writer : ∀ tx state, db.opened.get? tx = some state → ∃ contents changed,
    state = ⟨some ⟨contents, db.committed.version⟩, true, changed⟩ ∧
      (changed = false → contents = db.committed.contents) ∧
      TablesReflect name fields contents (pending tx ++ published)
  unbegun : ∀ tx, db.next ≤ tx → pending tx = []

variable {name : String} {fields : List (IndexedField α)} {pending : Nat → List (Change α ι)}
  {published : List (Change α ι)} {db : Database} {tx : Nat}

namespace Sound

theorem fresh (sound : Sound name fields pending published db) : db.next ∉ db.opened.keys :=
  fun present => Nat.lt_irrefl _ (sound.bounded db.next present)

theorem unlocked (sound : Sound name fields pending published db) (free : db.isLocked = false)
    (tx : Nat) : db.opened.get? tx = none := by
  cases found : db.opened.get? tx with
  | none => rfl
  | some state =>
    obtain ⟨contents, changed, rfl, _⟩ := sound.writer tx state found
    have locked := Database.isLocked_iff.mpr ⟨tx, _, found, rfl⟩
    rw [free] at locked
    cases locked

theorem unopened (sound : Sound name fields pending published db) (free : db.isLocked = false)
    (tx : Nat) : tx ∉ db.opened.keys := by
  rw [← Table.get?_eq_none_iff]
  exact sound.unlocked free tx

/-- Transactions that came and went have used up numbers. -/
theorem renumber (sound : Sound name fields pending published db) {later : Nat}
    (reached : db.next ≤ later) : Sound name fields pending published { db with next := later } where
  committed := sound.committed
  bounded tx present := (sound.bounded tx present).trans_le reached
  single := sound.single
  writer := sound.writer
  unbegun tx beyond := sound.unbegun tx (reached.trans beyond)

/-- With no transaction open the committed state is all there is. -/
theorem publish (sound : Sound name fields pending published db) (free : db.isLocked = false)
    {contents : Contents} {changes : List (Change α ι)}
    (reflects : TablesReflect name fields contents changes) (version : Nat) :
    Sound name fields pending changes { db with committed := ⟨contents, version⟩ } where
  committed := reflects
  bounded := sound.bounded
  single := sound.single
  writer tx state found := by
    rw [sound.unlocked free tx] at found
    cases found
  unbegun := sound.unbegun

theorem begin (sound : Sound name fields pending published db) :
    Sound name fields pending published (Database.begin db).2 := by
  rw [Database.begin]
  split
  case isTrue => exact sound
  case isFalse locked =>
    have free : db.isLocked = false := by simpa using locked
    refine ⟨sound.committed, ?_, ?_, ?_, ?_⟩
    · intro tx present
      rcases Table.mem_keys_put.mp present with rfl | before
      · exact Nat.lt_succ_self _
      · exact absurd before (sound.unopened free tx)
    · intro tx present other here
      rcases Table.mem_keys_put.mp present with rfl | before
      · rcases Table.mem_keys_put.mp here with rfl | before
        · rfl
        · exact absurd before (sound.unopened free other)
      · exact absurd before (sound.unopened free tx)
    · intro tx state found
      rw [Database.enter, Table.get?_put] at found
      split at found
      case isTrue same =>
        cases found
        refine ⟨db.committed.contents, false, rfl, fun _ => rfl, ?_⟩
        rw [sound.unbegun tx (by rw [same])]
        exact sound.committed
      case isFalse =>
        rw [sound.unlocked free tx] at found
        cases found
    · intro tx beyond
      exact sound.unbegun tx ((Nat.le_succ _).trans beyond)

/-- A transaction that ends with its changes discarded leaves the others as they are. -/
theorem close (sound : Sound name fields pending published db) (tx : Nat) :
    Sound name fields pending published { db with opened := db.opened.erase tx } where
  committed := sound.committed
  bounded other present := sound.bounded other (Table.mem_keys_erase.mp present).1
  single first present second here :=
    sound.single first (Table.mem_keys_erase.mp present).1 second (Table.mem_keys_erase.mp here).1
  writer other state found := by
    rw [Table.get?_erase] at found
    split at found
    case isTrue => cases found
    case isFalse => exact sound.writer other state found
  unbegun := sound.unbegun

theorem unlocked_close (sound : Sound name fields pending published db)
    (present : tx ∈ db.opened.keys) :
    Database.isLocked { db with opened := db.opened.erase tx } = false := by
  rw [Bool.eq_false_iff]
  intro locked
  obtain ⟨other, state, found, _⟩ := Database.isLocked_iff.mp locked
  have here : other ∈ (db.opened.erase tx).keys := Table.mem_keys_of_get? found
  obtain ⟨before, differs⟩ := Table.mem_keys_erase.mp here
  exact differs (sound.single other before tx present)

/-- Committing publishes what is pending in the transaction, all of it at once. -/
theorem commit (sound : Sound name fields pending published db) {state : OpenTransaction}
    (found : db.opened.get? tx = some state) :
    ∃ next, Database.commit tx db = (.ok (), next) ∧
      Sound name fields pending (pending tx ++ published) next := by
  have present : tx ∈ db.opened.keys := Table.mem_keys_of_get? found
  have free := sound.unlocked_close present
  obtain ⟨contents, changed, rfl, untouched, reflects⟩ := sound.writer tx state found
  cases changed with
  | true =>
    refine ⟨_, ?_, (sound.close tx).publish free reflects (db.committed.version + 1)⟩
    simp only [Database.commit, found]
  | false =>
    rw [untouched rfl] at reflects
    refine ⟨_, ?_, (sound.close tx).publish free reflects db.committed.version⟩
    simp only [Database.commit, found]

end Sound

variable [LawfulIdentifier ι] {change : Change α ι}

omit [DecidableEq ι] [Record α ι] [Identifier ι] [LawfulIdentifier ι] in
theorem names_nodup (distinct : (fields.map fun field => foldName field.name.text).Nodup) :
    (fields.map IndexedField.name).Nodup := by
  have folded : ((fields.map IndexedField.name).map fun index => foldName index.text).Nodup := by
    rw [List.map_map]
    exact distinct
  exact folded.of_map _

theorem insertIn_unwritten {record : α} {reason : String}
    (refused : Record.toJson record = .error reason) :
    ∃ error, (stored name fields : Collection _ _ α ι).insertIn tx record db = (.error error, db) := by
  rcases (stored name fields : Collection _ _ α ι).project_cases record with
    ⟨entries, _, projected⟩ | ⟨_, _, cause, _, failed⟩
  · obtain ⟨key, named, _⟩ := Codec.identifier_keeps (Record.id record)
    have unwritten : Database.written Codec.record record db =
        (.error (.codec (.unwritable reason)), db) := by
      have encoded : Codec.record.encode record = .error reason := by
        simp [Codec.record, refused, Except.map]
      rw [Database.written, encoded]
      rfl
    have failed : (recordStore name).add tx (Record.id record) record db =
        (.error (.codec (.unwritable reason)), db) :=
      (Action.bind_of_ok (Database.written_of_encode named db)).trans (Action.bind_of_error unwritten)
    exact ⟨_, insertIn_failed projected failed⟩
  · exact ⟨_, insertIn_unprojected failed⟩

theorem changeIn_unopened (unopened : db.opened.get? tx = none) :
    ∃ error, (stored name fields : Collection _ _ α ι).changeIn tx change db = (.error error, db) := by
  cases change with
  | put record =>
    cases written : (Record.toJson record : Except String Json) with
    | error reason => exact insertIn_unwritten written
    | ok json =>
      rcases (stored name fields : Collection _ _ α ι).project_cases record with
        ⟨entries, _, projected⟩ | ⟨_, _, cause, _, failed⟩
      · obtain ⟨key, named, _⟩ := Codec.identifier_keeps (Record.id record)
        have encoded : Codec.record.encode record = .ok json.compact := by
          simp [Codec.record, written, Except.map]
        have closed : (recordStore name).add tx (Record.id record) record db =
            (.error (.transactionClosed tx), db) :=
          (Action.bind_of_ok (Database.written_of_encode named db)).trans
            ((Action.bind_of_ok (Database.written_of_encode encoded db)).trans
              (Database.modify_unopened unopened))
        exact ⟨_, insertIn_failed projected closed⟩
      · exact ⟨_, insertIn_unprojected failed⟩
  | drop id =>
    obtain ⟨key, named, _⟩ := Codec.identifier_keeps id
    have closed : (recordStore name : LeafStore _ _ ι α).remove tx id db =
        (.error (.transactionClosed tx), db) :=
      (Action.bind_of_ok (Database.written_of_encode named db)).trans
        (Action.bind_of_error (Database.select_unopened unopened))
    exact ⟨_, removeIn_failed closed⟩

/-- A change made in the open transaction is pending there, and stays hidden. -/
theorem Sound.within (sound : Sound name fields pending published db)
    (distinct : (fields.map fun field => foldName field.name.text).Nodup) {state : OpenTransaction}
    (found : db.opened.get? tx = some state)
    (writable : ∀ record, change = .put record → Codec.record.Keeps record) :
    ∃ answer next, (stored name fields).changeIn tx change db = (answer, next) ∧
      Sound name fields
        (fun other => if tx = other then change.tried answer (pending other) else pending other)
        published next := by
  obtain ⟨contents, changed, rfl, untouched, catalog, shows, reflects⟩ := sound.writer tx state found
  have present : tx ∈ db.opened.keys := Table.mem_keys_of_get? found
  have same : db = db.writing tx contents changed := by
    rw [Database.writing, Table.put_of_get? found]
  obtain ⟨_, after, made, ⟨later, touched, rfl, shown, unchanged⟩, reflectsAfter⟩ :=
    (stored_writes distinct).changeIn (names_nodup distinct) reflects
      ⟨contents, changed, same, shows, untouched⟩ change writable
  rw [Change.tried_append] at reflectsAfter
  have known {other : Nat} (here : other ∈ (db.writing tx later touched).opened.keys) :
      other ∈ db.opened.keys := by
    rcases Table.mem_keys_put.mp here with rfl | before
    · exact present
    · exact before
  refine ⟨_, _, made, sound.committed, ?_, ?_, ?_, ?_⟩
  · exact fun other here => sound.bounded other (known here)
  · exact fun first here second there => sound.single first (known here) second (known there)
  · intro other state here
    have member : other ∈ (db.writing tx later touched).opened.keys := Table.mem_keys_of_get? here
    obtain rfl : other = tx := sound.single other (known member) tx present
    rw [Database.opened_writing] at here
    cases here
    refine ⟨later, touched, rfl, unchanged, after, shown, ?_⟩
    rw [if_pos rfl]
    exact reflectsAfter
  · intro other beyond
    have differs : tx ≠ other := by
      intro equal
      subst equal
      exact Nat.lt_irrefl _ ((sound.bounded tx present).trans_le beyond)
    rw [if_neg differs]
    exact sound.unbegun other beyond

omit [LawfulIdentifier ι] in
private theorem begin_stored (free : db.isLocked = false) :
    (stored name fields : Collection _ _ α ι).begin db = (.ok db.next,
      { db with next := db.next + 1 }.writing db.next db.committed.contents false) :=
  Action.mapError_of_ok (Database.begin_unlocked free)

omit [LawfulIdentifier ι] in
private theorem release_stored {α : Type} {answer : α} (fresh : db.next ∉ db.opened.keys)
    (contents : Contents) (changed : Bool) :
    (answer, Database.release db.next
      ({ db with next := db.next + 1 }.writing db.next contents changed)) =
      (answer, { db with next := db.next + 1 }) := by
  have unopened : db.next ∉ Table.keys (Database.opened { db with next := db.next + 1 }) := fresh
  rw [Database.release_writing unopened]

/-- A change in a transaction of its own is published if it was made. -/
theorem Sound.alone (sound : Sound name fields pending published db) (free : db.isLocked = false)
    (distinct : (fields.map fun field => foldName field.name.text).Nodup)
    (writable : ∀ record, change = .put record → Codec.record.Keeps record) {catalog : Catalog α ι}
    (shows : TablesShow name fields db.committed.contents catalog)
    (reflects : catalog.Reflects fields published) :
    ∃ next, (stored name fields).changeAlone change db =
        ((stored name fields).answerTo catalog change, next) ∧
      Sound name fields pending
        (change.tried ((stored name fields).answerTo catalog change) published) next ∧
      next.isLocked = false := by
  have begun : (stored name fields : Collection _ _ α ι).begin db = _ := begin_stored free
  have later := sound.renumber (Nat.le_succ db.next)
  have fresh : db.next ∉ Table.keys (Database.opened { db with next := db.next + 1 }) := sound.fresh
  have start : WriterShows name fields { db with next := db.next + 1 } db.next
      ({ db with next := db.next + 1 }.writing db.next db.committed.contents false) catalog :=
    ⟨db.committed.contents, false, rfl, shows, fun _ => rfl⟩
  obtain ⟨_, after, made, ⟨contents, changed, rfl, shown, unchanged⟩, reflectsAfter⟩ :=
    (stored_writes distinct).changeIn (names_nodup distinct) reflects start change writable
  rw [changeAlone_eq]
  cases answer : (stored name fields).answerTo catalog change with
  | error cause =>
    rw [answer] at made
    exact ⟨_, (change_failed begun made).trans (release_stored sound.fresh contents changed), later,
      free⟩
  | ok done =>
    rw [answer] at made reflectsAfter
    cases done with
    | false =>
      exact ⟨_, change_unmade begun made (Database.abort_writing fresh), later, free⟩
    | true =>
      refine ⟨_, change_made begun made (Database.commit_writing fresh), ?_, ?_⟩
      · cases changed with
        | false =>
          rw [unchanged rfl] at shown
          exact later.publish free ⟨after, shown, reflectsAfter⟩ db.committed.version
        | true => exact later.publish free ⟨after, shown, reflectsAfter⟩ (db.committed.version + 1)
      · cases changed <;> exact free

omit [DecidableEq ι] [Identifier ι] [LawfulIdentifier ι] in
theorem keeps_or_refused {record : α} (readable : Codec.record.ReadsBack record) :
    Codec.record.Keeps record ∨ ∃ reason, Record.toJson record = .error reason := by
  cases written : (Record.toJson record : Except String Json) with
  | error reason => exact .inr ⟨reason, rfl⟩
  | ok json =>
    have encoded : Codec.record.encode record = .ok json.compact := by
      simp [Codec.record, written, Except.map]
    exact .inl ⟨_, encoded, readable _ encoded⟩

omit [LawfulIdentifier ι] in
theorem changeAlone_locked (locked : db.isLocked = true) :
    (stored name fields : Collection _ _ α ι).changeAlone change db =
      (.error (.store (.ofDatabase (.execute .locked))), db) := by
  rw [changeAlone_eq]
  exact Action.bind_of_error (Action.mapError_of_error (Database.begin_locked locked))

/-- Whatever becomes of a change in a transaction of its own, the answer says what is published. -/
theorem Sound.changeAlone (sound : Sound name fields pending published db)
    (distinct : (fields.map fun field => foldName field.name.text).Nodup)
    (readable : ∀ record, change = .put record → Codec.record.ReadsBack record) :
    ∃ answer next, (stored name fields).changeAlone change db = (answer, next) ∧
      Sound name fields pending (change.tried answer published) next := by
  cases lock : db.isLocked with
  | true => exact ⟨_, db, changeAlone_locked lock, sound⟩
  | false =>
    obtain ⟨catalog, shows, reflects⟩ := sound.committed
    by_cases refused : ∃ record reason, change = .put record ∧ Record.toJson record = .error reason
    · obtain ⟨record, reason, rfl, refused⟩ := refused
      have failed : ∃ error, (stored name fields).changeIn db.next (.put record)
          ({ db with next := db.next + 1 }.writing db.next db.committed.contents false) =
          (.error error, _) := insertIn_unwritten refused
      obtain ⟨error, failed⟩ := failed
      rw [changeAlone_eq]
      exact ⟨_, _, (change_failed (begin_stored lock) failed).trans
        (release_stored sound.fresh _ _), sound.renumber (Nat.le_succ _)⟩
    · have writable : ∀ record, change = .put record → Codec.record.Keeps record := by
        intro record same
        rcases keeps_or_refused (readable record same) with keeps | ⟨reason, failed⟩
        · exact keeps
        · exact absurd ⟨record, reason, same, failed⟩ refused
      obtain ⟨next, made, after, _⟩ := sound.alone lock distinct writable shows reflects
      exact ⟨_, next, made, after⟩

/-- Whatever becomes of a change inside a transaction, the answer says what is pending there. -/
theorem Sound.changeIn (sound : Sound name fields pending published db)
    (distinct : (fields.map fun field => foldName field.name.text).Nodup) (tx : Nat)
    (readable : ∀ record, change = .put record → Codec.record.ReadsBack record) :
    ∃ answer next, (stored name fields).changeIn tx change db = (answer, next) ∧
      Sound name fields
        (fun other => if tx = other then change.tried answer (pending other) else pending other)
        published next := by
  have unchanged (error : QueryError) :
      (fun other => if tx = other then change.tried (.error error) (pending other)
        else pending other) = pending := by
    funext other
    split <;> rfl
  cases found : db.opened.get? tx with
  | none =>
    have failed : ∃ error, (stored name fields).changeIn tx change db = (.error error, db) :=
      changeIn_unopened found
    obtain ⟨error, failed⟩ := failed
    exact ⟨_, db, failed, by rw [unchanged]; exact sound⟩
  | some state =>
    by_cases refused : ∃ record reason, change = .put record ∧ Record.toJson record = .error reason
    · obtain ⟨record, reason, rfl, refused⟩ := refused
      have failed : ∃ error, (stored name fields).changeIn tx (.put record) db = (.error error, db) :=
        insertIn_unwritten refused
      obtain ⟨error, failed⟩ := failed
      exact ⟨_, db, failed, by rw [unchanged]; exact sound⟩
    · refine sound.within distinct found ?_
      intro record same
      rcases keeps_or_refused (readable record same) with keeps | ⟨reason, failed⟩
      · exact keeps
      · exact absurd ⟨record, reason, same, failed⟩ refused

/-- A query, accepted or not, does nothing but use up numbers of transactions. -/
theorem find_stored_world (sound : Sound name fields pending published db) (scope : Scope)
    (expr : Expr) : ∃ later, db.next ≤ later ∧
      ((stored name fields : Collection _ _ α ι).find scope expr db).2 = { db with next := later } := by
  obtain ⟨catalog, shows, _⟩ := sound.committed
  have reads : ReadsCatalog (stored name fields : Collection _ _ α ι) (ReaderShows name fields db) :=
    stored_reads sound.bounded
  cases planned : (stored name fields : Collection _ _ α ι).plan scope expr with
  | error cause =>
    refine ⟨db.next, Nat.le_refl _, ?_⟩
    rw [find, planned]
    rfl
  | ok operation =>
    rw [find, planned, Action.bind_of_ok (Action.ofExcept_apply ..)]
    cases missing : (stored name fields : Collection _ _ α ι).missingIndex? operation with
    | some index =>
      refine ⟨db.next, Nat.le_refl _, ?_⟩
      rw [execute, missing]
      rfl
    | none =>
      have declared : ∀ index ∈ operation.indexNames,
          index ∈ (stored name fields : Collection _ _ α ι).indexNames := by
        intro index member
        rw [missingIndex?, List.find?_eq_none] at missing
        apply (reads.indexed index).mp
        rw [Option.isSome_iff_ne_none]
        simpa using missing index member
      obtain ⟨_, success, later, reached, rfl, _⟩ :=
        reads.execute ⟨db.next, Nat.le_refl _, rfl, shows⟩ declared
      exact ⟨later, reached, by rw [success]⟩

/-- A query that is accepted, over declared indexes, finds each committed record that satisfies it
once. -/
theorem Sound.find_exact {paths : List String}
    (sound : Sound name (IndexedField.members paths) pending published db) {scope : Scope}
    {expr : Expr} {operation : Operation ι}
    (accepted : (stored name (IndexedField.members paths) : Collection _ _ α ι).plan scope expr =
      .ok operation)
    (declared : ∀ path ∈ expr.fieldPaths (Record.idMember α),
      path.indexName ∈ paths.map IndexName.parse) :
    ∃ found later, db.next ≤ later ∧
      (stored name (IndexedField.members paths)).find scope expr db =
        (.ok found, { db with next := later }) ∧
      (found.map Record.id).Nodup ∧
      ∀ record, record ∈ found ↔ Change.current? (Record.id record) published = some record ∧
        expr.holdsByName scope record = true := by
  obtain ⟨catalog, shows, reflects⟩ := sound.committed
  rw [← IndexedField.members_names α] at declared
  obtain ⟨found, _, success, ⟨later, reached, rfl, _⟩, once, exact⟩ :=
    (stored_reads sound.bounded).find_exact reflects IndexedField.members_agree
      ⟨db.next, Nat.le_refl _, rfl, shows⟩ accepted declared
  refine ⟨found, later, reached, success, once, ?_⟩
  intro record
  rw [exact record, reflects.records]
  rfl

/-- Every step keeps a database sound, and its answer says what it changed. -/
theorem Sound.perform {history : History Nat α ι} {step : Step Nat α ι}
    (sound : Sound name fields history.pending history.published db)
    (distinct : (fields.map fun field => foldName field.name.text).Nodup)
    (readable : ∀ record, step.Puts record → Codec.record.ReadsBack record) :
    Sound name fields
      (History.pending ((step, ((stored name fields).perform step db).1) :: history))
      (History.published ((step, ((stored name fields).perform step db).1) :: history))
      ((stored name fields).perform step db).2 := by
  cases step with
  | alone change =>
    obtain ⟨answer, next, made, after⟩ := sound.changeAlone distinct
      fun record same => readable record (.inl (congrArg _ same))
    rw [Collection.perform, made]
    exact after
  | begin => exact sound.begin
  | within tx change =>
    obtain ⟨answer, next, made, after⟩ := sound.changeIn distinct tx
      fun record same => readable record (.inr ⟨tx, congrArg _ same⟩)
    rw [Collection.perform, made]
    exact after
  | commit tx =>
    cases found : db.opened.get? tx with
    | none =>
      have failed : (stored name fields : Collection _ _ α ι).transactions.commit tx db = _ :=
        Database.commit_unopened found
      rw [Collection.perform, failed]
      exact sound
    | some state =>
      obtain ⟨next, success, after⟩ := sound.commit found
      have committed : (stored name fields : Collection _ _ α ι).transactions.commit tx db = _ :=
        success
      rw [Collection.perform, committed]
      exact after
  | abort tx =>
    cases found : db.opened.get? tx with
    | none =>
      have failed : (stored name fields : Collection _ _ α ι).transactions.abort tx db = _ :=
        Database.abort_unopened found
      rw [Collection.perform, failed]
      exact sound
    | some state =>
      have aborted : (stored name fields : Collection _ _ α ι).transactions.abort tx db =
          (.ok (), { db with opened := db.opened.erase tx }) := by
        change Database.abort tx db = _
        simp only [Database.abort, found]
      rw [Collection.perform, aborted]
      exact sound.close tx
  | release tx => exact sound.close tx
  | find scope expr =>
    obtain ⟨later, reached, same⟩ := find_stored_world sound scope expr
    rw [Collection.perform]
    change Sound name fields history.pending history.published
      ((stored name fields : Collection _ _ α ι).find scope expr db).2
    rw [same]
    exact sound.renumber reached

omit [LawfulIdentifier ι] in
theorem sound_unused (unused : db.Unused)
    (empty : TablesShow name fields db.committed.contents (Catalog.empty : Catalog α ι)) :
    Sound name fields (fun _ => []) ([] : List (Change α ι)) db where
  committed := ⟨_, empty, Catalog.Reflects.empty⟩
  bounded tx present := by
    rw [unused.opened] at present
    cases present
  single tx present := by
    rw [unused.opened] at present
    cases present
  writer tx state found := by
    rw [unused.opened] at found
    cases found
  unbegun _ _ := rfl

theorem play_sound (start : Sound name fields (fun _ => []) ([] : List (Change α ι)) db)
    (distinct : (fields.map fun field => foldName field.name.text).Nodup)
    {steps : List (Step Nat α ι)}
    (readable : ∀ step ∈ steps, ∀ record, step.Puts record → Codec.record.ReadsBack record) :
    Sound name fields ((stored name fields).play steps db).1.pending
      ((stored name fields).play steps db).1.published ((stored name fields).play steps db).2 :=
  play_invariant (fun step => ∀ record, step.Puts record → Codec.record.ReadsBack record)
    (fun history db => Sound name fields (History.pending history) (History.published history) db)
    start (fun _ _ _ readable sound => sound.perform distinct readable) readable

/-- In every state of a session on a collection opened in an unused database, whatever steps were taken
in whatever order: the committed tables agree with each other and hold what was published, the view of
each open transaction agrees likewise with what is pending in it besides, and a query that is accepted,
over declared indexes, finds each committed record that satisfies it once. Fields are looked at where
their names lead, which is where they stand themselves unless a segment is empty or holds a dot. -/
theorem openStored_session_exact (name : String) (paths : List String)
    (distinct : (paths.map fun path => foldName (IndexName.parse path).text).Nodup)
    {collection : Collection Database Nat α ι} {start : Database}
    (opened : openStored name (IndexedField.members paths) .empty = (.ok collection, start))
    {steps : List (Step Nat α ι)}
    (readable : ∀ step ∈ steps, ∀ record, step.Puts record → Codec.record.ReadsBack record)
    {history : History Nat α ι} {db : Database}
    (played : collection.play steps start = (history, db)) :
    TablesAgree name (IndexedField.members paths) db.committed.contents history.published ∧
      (∀ tx state, db.opened.get? tx = some state → ∃ view, state.view = some view ∧
        TablesAgree name (IndexedField.members paths) view.contents
          (history.pending tx ++ history.published)) ∧
      ∀ scope expr operation, collection.plan scope expr = .ok operation →
        (∀ path ∈ expr.fieldPaths (Record.idMember α), path.indexName ∈ paths.map IndexName.parse) →
        ∃ found next, collection.find scope expr db = (.ok found, next) ∧
          next.committed = db.committed ∧ next.opened = db.opened ∧
          (found.map Record.id).Nodup ∧
          (∀ record, record ∈ found ↔
            Change.current? (Record.id record) history.published = some record ∧
              expr.holdsByName scope record = true) ∧
          ((∀ path ∈ expr.fieldPaths (Record.idMember α), path.Plain) →
            ∀ record, record ∈ found ↔
              Change.current? (Record.id record) history.published = some record ∧
                expr.holds scope record = true) := by
  have apart : ((IndexedField.members paths : List (IndexedField α)).map
      fun field => foldName field.name.text).Nodup := by
    rw [IndexedField.members, List.map_map]
    exact distinct
  obtain ⟨rfl, unused, empty⟩ := openStored_unused Database.unused_empty opened
  have sound := play_sound (sound_unused unused empty) apart readable
  rw [played] at sound
  refine ⟨sound.committed.agree, ?_, ?_⟩
  · intro tx state found
    obtain ⟨contents, changed, rfl, _, reflects⟩ := sound.writer tx state found
    exact ⟨_, rfl, reflects.agree⟩
  · intro scope expr operation accepted declared
    obtain ⟨found, later, _, success, once, byName⟩ := sound.find_exact accepted declared
    refine ⟨found, _, success, rfl, rfl, once, byName, ?_⟩
    intro plain record
    rw [byName record, Expr.holdsByName_of_plain plain]

/-- A collection with an index of a member inside a member. -/
def people : Collection Database Nat Numbered Int64 :=
  stored "people" (IndexedField.members ["a.b"])

theorem nestedRecord_keeps : Codec.record.Keeps nestedRecord :=
  ⟨"\x7b\"a\":\x7b\"b\":1\x7d,\"id\":1\x7d", by decide +kernel, by decide +kernel⟩

theorem dottedRecord_keeps : Codec.record.Keeps dottedRecord :=
  ⟨"\x7b\"a.b\":1,\"id\":1\x7d", by decide +kernel, by decide +kernel⟩

/-- A record whose removal is still pending is found. -/
theorem openStored_session_nestedRecord :
    (["a.b"].map fun path => foldName (IndexName.parse path).text).Nodup ∧
      ∃ start, openStored "people" (IndexedField.members ["a.b"]) .empty = (.ok people, start) ∧
        ∃ found next,
          people.find .empty (isOne (.parse "a.b"))
              (people.play [.alone (.put nestedRecord), .begin, .within 2 (.drop 1)] start).2 =
            (.ok found, next) ∧
          nestedRecord ∈ found := by
  have distinct : (["a.b"].map fun path => foldName (IndexName.parse path).text).Nodup := by simp
  have opened : openStored "people" (IndexedField.members ["a.b"]) .empty = (.ok people, _) :=
    openStored_of_isOk Database.unused_empty (by decide +kernel)
  have readable : ∀ step ∈ ([.alone (.put nestedRecord), .begin, .within 2 (.drop 1)] :
      List (Step Nat Numbered Int64)), ∀ record, step.Puts record →
        Codec.record.ReadsBack record := by
    intro step member record puts
    have same : record = nestedRecord := by
      rcases puts with rfl | ⟨tx, rfl⟩ <;> simp_all
    rw [same]
    exact nestedRecord_keeps.readsBack
  obtain ⟨_, _, finds⟩ := openStored_session_exact "people" ["a.b"] distinct opened readable rfl
  obtain ⟨found, next, success, _, _, _, exact, _⟩ :=
    finds .empty (isOne (.parse "a.b")) (.byField (.parse "a.b") (.text "1")) (by rfl)
      (by decide +kernel)
  exact ⟨distinct, _, opened, found, next, success,
    (exact nestedRecord).mpr (by decide +kernel)⟩

/-- A committed record that satisfies the query at the path itself is missed, because the path shares its
name with the index of another one. -/
theorem openStored_find_by_name :
    ∃ start, openStored "people" (IndexedField.members ["a.b"]) .empty = (.ok people, start) ∧
      Codec.record.ReadsBack dottedRecord ∧
      (∃ operation, people.plan .empty (isOne ⟨["a.b"]⟩) = .ok operation) ∧
      (∀ path ∈ (isOne ⟨["a.b"]⟩).fieldPaths (Record.idMember Numbered),
        path.indexName ∈ ["a.b"].map IndexName.parse) ∧
      Change.current? 1 (people.play [.alone (.put dottedRecord)] start).1.published =
        some dottedRecord ∧
      (isOne ⟨["a.b"]⟩).holds .empty dottedRecord = true ∧
      (people.find .empty (isOne ⟨["a.b"]⟩)
        (people.play [.alone (.put dottedRecord)] start).2).1 = .ok [] := by
  refine ⟨_, openStored_of_isOk Database.unused_empty (by decide +kernel),
    dottedRecord_keeps.readsBack, ⟨_, rfl⟩, ?_, ?_, ?_, ?_⟩
  · decide +kernel
  · decide +kernel
  · decide +kernel
  · decide +kernel

end Collection

end DocStore
