import DocStore.Proofs.Database.Schedule

/-! The transactions of a session that took the write lock and were committed come to the same as if they
had run one after another, in the order of their commits. `Serial` carries this through the session. -/
namespace DocStore.Stores

open Database (Confined Glimpse Regular LegibleTo SameTables sameTables_refl)

variable {Store : Type} (stores : Stores Store)

/-- Makes some requests in a write transaction of their own. -/
def alone (asked : List stores.Asked) : StoreAction Database (List stores.Replied) := do
  let tx ← Database.begin
  let replies ← asked.mapM (stores.ask tx)
  Database.commit tx
  pure replies

/-- Runs some write transactions one after another. -/
def serially (blocks : List (List stores.Asked)) : StoreAction Database (List (List stores.Replied)) :=
  blocks.mapM stores.alone

/-- A database that holds some contents and is used by nobody. -/
def still (contents : Contents) : Database := { Database.empty with committed := ⟨contents, 0⟩ }

/-- A request in a read transaction of its own, on contents that nobody else uses. -/
def askStill (contents : Contents) (asked : stores.Asked) : Except StoreError stores.Replied × Database :=
  (do
    let tx ← Database.beginRead
    stores.ask tx asked : StoreAction Database stores.Replied) (still contents)

/-- What is replied to the request there. -/
def readAlone (contents : Contents) (asked : stores.Asked) : Except StoreError stores.Replied :=
  (stores.askStill contents asked).1

/-- Whether the request takes the write lock there. -/
def locksAlone (contents : Contents) (asked : stores.Asked) : Bool :=
  (stores.askStill contents asked).2.isLocked

variable {stores}

/-- In a transaction with the write lock some requests get some replies and lead from contents to
contents. -/
def Runs (work : List (stores.Asked × stores.Replied)) (before after : Contents) : Prop :=
  ∀ (base : Database) tx changed, ∃ touched,
    (work.map Prod.fst).mapM (stores.ask tx) (base.writing tx before changed) =
        (.ok (work.map Prod.snd), base.writing tx after touched) ∧
      (touched = false → changed = false ∧ after = before)

theorem runs_nil (contents : Contents) :
    Runs ([] : List (stores.Asked × stores.Replied)) contents contents :=
  fun _ _ changed => ⟨changed, rfl, fun untouched => ⟨untouched, rfl⟩⟩

theorem Runs.snoc {work : List (stores.Asked × stores.Replied)} {before middle after : Contents}
    {asked : stores.Asked} {replied : stores.Replied} {meaning : StoreAction Contents stores.Replied}
    {needs : Contents → Prop}
    (runs : Runs work before middle) (confined : Confined (fun tx => stores.ask tx asked) meaning needs)
    (means : meaning middle = (.ok replied, after)) :
    Runs (work ++ [(asked, replied)]) before after := by
  intro base tx changed
  obtain ⟨touched, first, untouched⟩ := runs base tx changed
  obtain ⟨again, second, unchanged⟩ := confined.writing base tx middle touched
  rw [means] at second unchanged
  refine ⟨again, ?_, ?_⟩
  · rw [List.map_append, List.map_append, List.mapM_append, Action.bind_of_ok first]
    have last : [asked].mapM (stores.ask tx) (base.writing tx middle touched) =
        (.ok [replied], base.writing tx after again) := by
      rw [List.mapM_cons, Action.bind_of_ok second]
      rfl
    exact Action.bind_of_ok last
  · intro quiet
    obtain ⟨still, kept⟩ := unchanged quiet
    obtain ⟨start, unmoved⟩ := untouched still
    exact ⟨start, kept.trans unmoved⟩

/-- In a database used by nobody else requests run in a transaction of their own, and what they lead to
is committed. -/
theorem alone_of_runs {work : List (stores.Asked × stores.Replied)} {db : Database} {after : Contents}
    (quiet : db.opened = .empty) (runs : Runs work db.committed.contents after) :
    ∃ next, stores.alone (work.map Prod.fst) db = (.ok (work.map Prod.snd), next) ∧
      next.committed.contents = after ∧ next.opened = .empty := by
  have free : db.isLocked = false := by
    rw [Database.isLocked, quiet]
    rfl
  obtain ⟨touched, ran, untouched⟩ := runs { db with next := db.next + 1 } db.next false
  have fresh : db.next ∉ ({ db with next := db.next + 1 } : Database).opened.keys := by
    change db.next ∉ db.opened.keys
    rw [quiet]
    exact List.not_mem_nil
  rw [alone, Action.bind_of_ok (Database.begin_unlocked free), Action.bind_of_ok ran]
  refine ⟨_, Action.bind_of_ok (Database.commit_writing fresh), ?_, ?_⟩
  · cases touched with
    | true => rfl
    | false => exact (untouched rfl).2.symm
  · cases touched <;> exact quiet

theorem serially_snoc {blocks : List (List stores.Asked)} {replies : List (List stores.Replied)}
    {block : List stores.Asked} {replied : List stores.Replied} {start middle final : Database}
    (earlier : stores.serially blocks start = (.ok replies, middle))
    (last : stores.alone block middle = (.ok replied, final)) :
    stores.serially (blocks ++ [block]) start = (.ok (replies ++ [replied]), final) := by
  have single : [block].mapM stores.alone middle = (.ok [replied], final) := by
    rw [List.mapM_cons, Action.bind_of_ok last]
    rfl
  rw [serially] at earlier
  rw [serially, List.mapM_append, Action.bind_of_ok earlier]
  exact Action.bind_of_ok single

/-- A state that a transaction without the write lock may have fixed: it is the last commit or one before
it, and no table came or went since the start. -/
structure Visible (start : Database) (committed seen : Snapshot) : Prop where
  tables : SameTables start.committed.contents seen.contents
  older : seen.version ≤ committed.version
  current : seen.version = committed.version → seen.contents = committed.contents

/-- What a transaction without the write lock sees, or may turn out to see. -/
def MaySee (start : Database) (view : Option Snapshot) (contents : Contents) : Prop :=
  SameTables start.committed.contents contents ∧ ∀ seen, view = some seen → contents = seen.contents

/-- How an open transaction stands, by what it has asked with success. -/
inductive Standing (start : Database) (committed : Snapshot)
    (work : List (stores.Asked × stores.Replied)) : OpenTransaction → Prop
  | reader {view}
      (viewed : ∀ seen, view = some seen → Visible start committed seen)
      (runs : ∀ contents, MaySee start view contents → Runs work contents contents) :
      Standing start committed work ⟨view, false, false⟩
  | writer {contents changed} (tables : SameTables start.committed.contents contents)
      (untouched : changed = false → contents = committed.contents)
      (runs : Runs work committed.contents contents) :
      Standing start committed work ⟨some ⟨contents, committed.version⟩, true, changed⟩

/-- Up to now the session has come to the same as the transactions that were published one after
another. -/
structure Serial (start : Database) (past : stores.Past) (db : Database) : Prop where
  regular : Regular db
  unbegun : ∀ tx, db.next ≤ tx → work tx past = []
  ended : ∀ tx ∈ published past, tx < db.next ∧ db.opened.get? tx = none
  tables : SameTables start.committed.contents db.committed.contents
  standing : ∀ tx state, db.opened.get? tx = some state →
    Standing start db.committed (work tx past) state
  serial : ∃ final, stores.serially ((published past).map fun tx => (work tx past).map Prod.fst) start =
      (.ok ((published past).map fun tx => (work tx past).map Prod.snd), final) ∧
    final.committed.contents = db.committed.contents ∧ final.opened = .empty

section

variable {start db next : Database} {past : stores.Past} {event : stores.Event} {tx : Nat}

theorem work_failed (failed : event.failed = true) (tx : Nat) :
    work tx ((db, event) :: past) = work tx past := by
  cases event with
  | asked other asked outcome =>
    cases outcome with
    | error error => rfl
    | ok replied => cases failed
  | _ => rfl

theorem work_other {other : Nat} {asked : stores.Asked} {outcome : Except StoreError stores.Replied}
    (differs : other ≠ tx) : work other ((db, .asked tx asked outcome) :: past) = work other past := by
  cases outcome with
  | error error => rfl
  | ok replied => rw [work, if_neg differs.symm]

theorem published_failed (failed : event.failed = true) :
    published ((db, event) :: past) = published past := by
  cases event with
  | committed tx outcome =>
    cases outcome with
    | error error => rfl
    | ok done => cases failed
  | _ => rfl

/-- A request that was made counts if it succeeded, and has changed nothing otherwise. -/
theorem runs_asked {before middle after : Contents} {asked : stores.Asked}
    {outcome : Except StoreError stores.Replied} {meaning : StoreAction Contents stores.Replied}
    {needs : Contents → Prop}
    (runs : Runs (work tx past) before middle)
    (confined : Confined (fun tx => stores.ask tx asked) meaning needs)
    (means : meaning middle = (outcome, after))
    (steady : ∀ error later, meaning middle = (.error error, later) → later = middle) :
    Runs (work tx ((db, .asked tx asked outcome) :: past)) before after := by
  cases outcome with
  | error error =>
    rw [steady error after means]
    exact runs
  | ok replied =>
    rw [work, if_pos rfl]
    exact runs.snoc confined means

namespace Serial

theorem keep (serial : Serial start past db) (regular : Regular next)
    (working : ∀ tx, work tx ((db, event) :: past) = work tx past)
    (publishing : published ((db, event) :: past) = published past)
    (later : db.next ≤ next.next) (committed : next.committed = db.committed)
    (ended : ∀ tx, tx < db.next → db.opened.get? tx = none → next.opened.get? tx = none)
    (standing : ∀ tx state, next.opened.get? tx = some state →
      Standing start db.committed (work tx past) state) :
    Serial start ((db, event) :: past) next where
  regular := regular
  unbegun tx beyond := by
    rw [working]
    exact serial.unbegun tx (later.trans beyond)
  ended tx member := by
    rw [publishing] at member
    obtain ⟨begun, closed⟩ := serial.ended tx member
    exact ⟨begun.trans_le later, ended tx begun closed⟩
  tables := by
    rw [committed]
    exact serial.tables
  standing tx state opened := by
    rw [working, committed]
    exact standing tx state opened
  serial := by
    obtain ⟨final, ran, same, quiet⟩ := serial.serial
    simp only [publishing, working, committed]
    exact ⟨final, ran, same, quiet⟩

theorem ask (serial : Serial start past db) {asked : stores.Asked}
    {outcome : Except StoreError stores.Replied} {state : OpenTransaction}
    (opened : db.opened.get? tx = some state) (regular : Regular next) (later : next.next = db.next)
    (committed : next.committed = db.committed)
    (others : ∀ other, other ≠ tx → next.opened.get? other = db.opened.get? other)
    (standing : ∀ state, next.opened.get? tx = some state →
      Standing start db.committed (work tx ((db, .asked tx asked outcome) :: past)) state) :
    Serial start ((db, .asked tx asked outcome) :: past) next := by
  have begun := serial.regular.bounded tx state opened
  have differs {other : Nat} (member : other ∈ published past) : other ≠ tx := by
    rintro rfl
    rw [(serial.ended other member).2] at opened
    cases opened
  refine ⟨regular, ?_, ?_, ?_, ?_, ?_⟩
  · intro other beyond
    rw [later] at beyond
    rw [work_other (by omega)]
    exact serial.unbegun other beyond
  · intro other member
    rw [later, others other (differs member)]
    exact serial.ended other member
  · rw [committed]
    exact serial.tables
  · intro other state here
    rw [committed]
    by_cases same : other = tx
    · subst same
      exact standing state here
    · rw [work_other same]
      rw [others other same] at here
      exact serial.standing other state here
  · obtain ⟨final, ran, same, quiet⟩ := serial.serial
    refine ⟨final, ?_, by rw [committed]; exact same, quiet⟩
    have kept {β : Type} (part : stores.Asked × stores.Replied → β) :
        (published past).map (fun other =>
            (work other ((db, .asked tx asked outcome) :: past)).map part) =
          (published past).map fun other => (work other past).map part :=
      List.map_congr_left fun other member => by rw [work_other (differs member)]
    change stores.serially ((published past).map _) start = (.ok ((published past).map _), final)
    rw [kept, kept]
    exact ran

theorem sees (serial : Serial start past db) {view : Option Snapshot}
    (viewed : ∀ seen, view = some seen → Visible start db.committed seen) :
    Visible start db.committed (view.getD db.committed) ∧
      MaySee start view (view.getD db.committed).contents := by
  cases view with
  | none => exact ⟨⟨serial.tables, Nat.le_refl _, fun _ => rfl⟩, serial.tables, by simp⟩
  | some seen =>
    refine ⟨viewed seen rfl, (viewed seen rfl).tables, ?_⟩
    intro other same
    cases same
    rfl

theorem idle (serial : Serial start past db) (failed : event.failed = true) :
    Serial start ((db, event) :: past) db :=
  serial.keep serial.regular (work_failed failed) (published_failed failed) (Nat.le_refl _) rfl
    (fun _ _ closed => closed) serial.standing

theorem begun (serial : Serial start past db)
    (regular : Regular ({ db with next := db.next + 1 }.writing db.next db.committed.contents false)) :
    Serial start ((db, .begun (.ok db.next)) :: past)
      ({ db with next := db.next + 1 }.writing db.next db.committed.contents false) := by
  refine serial.keep regular (fun _ => rfl) rfl (Nat.le_succ _) rfl ?_ ?_
  · intro tx begun closed
    rw [Database.get?_writing, if_neg (by omega)]
    exact closed
  · intro tx state opened
    rw [Database.get?_writing] at opened
    split at opened
    case isTrue same =>
      cases opened
      rw [same, serial.unbegun db.next (Nat.le_refl _)]
      exact .writer serial.tables (fun _ => rfl) (runs_nil _)
    case isFalse => exact serial.standing tx state opened

theorem begunRead (serial : Serial start past db)
    (regular : Regular ({ db with next := db.next + 1 }.reading db.next none)) :
    Serial start ((db, .begunRead (.ok db.next)) :: past)
      ({ db with next := db.next + 1 }.reading db.next none) := by
  refine serial.keep regular (fun _ => rfl) rfl (Nat.le_succ _) rfl ?_ ?_
  · intro tx begun closed
    rw [Database.get?_reading, if_neg (by omega)]
    exact closed
  · intro tx state opened
    rw [Database.get?_reading] at opened
    split at opened
    case isTrue same =>
      cases opened
      rw [same, serial.unbegun db.next (Nat.le_refl _)]
      exact .reader (by simp) fun contents _ => runs_nil contents
    case isFalse => exact serial.standing tx state opened

theorem glimpsed (serial : Serial start past db) {view : Option Snapshot} {asked : stores.Asked}
    {outcome : Except StoreError stores.Replied} {meaning : StoreAction Contents stores.Replied}
    {needs : Contents → Prop}
    (regular : Regular next) (opened : db.opened.get? tx = some ⟨view, false, false⟩)
    (confined : Confined (fun tx => stores.ask tx asked) meaning needs)
    (glimpse : Glimpse meaning needs db tx (view.getD db.committed) outcome next)
    (steady : ∀ error contents, meaning (view.getD db.committed).contents = (.error error, contents) →
      contents = (view.getD db.committed).contents) :
    Serial start ((db, .asked tx asked outcome) :: past) next := by
  obtain ⟨viewed, runs⟩ : (∀ seen, view = some seen → Visible start db.committed seen) ∧
      ∀ contents, MaySee start view contents → Runs (work tx past) contents contents := by
    cases serial.standing tx _ opened with
    | reader viewed runs => exact ⟨viewed, runs⟩
  obtain ⟨sees, may⟩ := serial.sees viewed
  have others {state : OpenTransaction} (other : Nat) (differs : other ≠ tx) :
      (db.opened.put tx state).get? other = db.opened.get? other := by
    rw [Table.get?_put, if_neg differs]
  cases glimpse with
  | idle _ same =>
    refine serial.ask opened regular rfl rfl (fun _ _ => rfl) ?_
    intro state here
    rw [opened] at here
    cases here
    refine .reader viewed fun contents maySee => ?_
    have means := same contents (sees.tables.symm.trans maySee.1)
    refine runs_asked (runs contents maySee) confined means ?_
    intro error later failed
    rw [means] at failed
    cases failed
    rfl
  | looked _ same =>
    refine serial.ask opened regular rfl rfl others ?_
    intro state here
    rw [Database.get?_reading, if_pos rfl] at here
    cases here
    refine .reader ?_ ?_
    · rintro _ ⟨⟩
      exact sees
    · intro contents maySee
      rw [maySee.2 _ rfl]
      exact runs_asked (runs _ may) confined same steady
  | @took _ contents touched free current same untouched =>
    have start := sees.current current
    refine serial.ask opened regular rfl rfl others ?_
    intro state here
    rw [Database.get?_writing, if_pos rfl] at here
    cases here
    refine .writer ?_ ?_ ?_
    · have kept := confined.tables (view.getD db.committed).contents
      rw [same] at kept
      exact sees.tables.trans kept
    · intro quiet
      rw [untouched quiet, start]
    · rw [← start]
      exact runs_asked (runs _ may) confined same steady
  | refused _ why kept =>
    rcases kept with ⟨rfl, _⟩ | rfl
    · refine serial.ask opened regular rfl rfl (fun _ _ => rfl) ?_
      intro state here
      exact serial.standing tx state here
    · refine serial.ask opened regular rfl rfl others ?_
      intro state here
      rw [Database.get?_reading, if_pos rfl] at here
      cases here
      refine .reader ?_ ?_
      · rintro _ ⟨⟩
        exact sees
      · intro contents maySee
        rw [maySee.2 _ rfl]
        exact runs _ may

theorem wrote (serial : Serial start past db) {contents : Contents} {changed touched : Bool}
    {asked : stores.Asked} {meaning : StoreAction Contents stores.Replied} {needs : Contents → Prop}
    (opened : db.opened.get? tx = some ⟨some ⟨contents, db.committed.version⟩, true, changed⟩)
    (regular : Regular (db.writing tx (meaning contents).2 touched))
    (confined : Confined (fun tx => stores.ask tx asked) meaning needs)
    (untouched : touched = false → changed = false ∧ (meaning contents).2 = contents)
    (steady : ∀ error later, meaning contents = (.error error, later) → later = contents) :
    Serial start ((db, .asked tx asked (meaning contents).1) :: past)
      (db.writing tx (meaning contents).2 touched) := by
  cases serial.standing tx _ opened with
  | writer tables same runs =>
    refine serial.ask opened regular rfl rfl ?_ ?_
    · intro other differs
      rw [Database.get?_writing, if_neg differs]
    · intro state here
      rw [Database.get?_writing, if_pos rfl] at here
      cases here
      exact .writer (tables.trans (confined.tables contents))
        (fun quiet => (untouched quiet).2.trans (same (untouched quiet).1))
        (runs_asked runs confined rfl steady)

theorem close (serial : Serial start past db) (tx : Nat)
    (working : ∀ tx, work tx ((db, event) :: past) = work tx past)
    (publishing : published ((db, event) :: past) = published past) :
    Serial start ((db, event) :: past) { db with opened := db.opened.erase tx } := by
  refine serial.keep (serial.regular.close tx) working publishing (Nat.le_refl _) rfl ?_ ?_
  · intro other _ closed
    rw [Table.get?_erase, closed, ite_self]
  · intro other state opened
    rw [Table.get?_erase] at opened
    split at opened
    case isTrue => cases opened
    case isFalse => exact serial.standing other state opened

/-- The transaction with the write lock is committed: it has run after all those published before it. -/
theorem publish (serial : Serial start past db) {contents : Contents} {changed : Bool} {later : Snapshot}
    (opened : db.opened.get? tx = some ⟨some ⟨contents, db.committed.version⟩, true, changed⟩)
    (regular : Regular { db with opened := db.opened.erase tx, committed := later })
    (publishes : later.contents = contents)
    (advances : later = db.committed ∨ later.version = db.committed.version + 1) :
    Serial start ((db, .committed tx (.ok ())) :: past)
      { db with opened := db.opened.erase tx, committed := later } := by
  obtain ⟨tables, runs⟩ : SameTables start.committed.contents contents ∧
      Runs (work tx past) db.committed.contents contents := by
    cases serial.standing tx _ opened with
    | writer tables _ runs => exact ⟨tables, runs⟩
  have holds : db.holdsLock tx = true := Database.holdsLock_iff.mpr ⟨_, opened, rfl⟩
  have publishing : published ((db, .committed tx (.ok ())) :: past) = published past ++ [tx] := by
    rw [published, if_pos holds]
  refine ⟨regular, serial.unbegun, ?_, ?_, ?_, ?_⟩
  · intro other member
    rw [publishing, List.mem_append, List.mem_singleton] at member
    rcases member with before | rfl
    · obtain ⟨begun, closed⟩ := serial.ended other before
      exact ⟨begun, by rw [Table.get?_erase, closed, ite_self]⟩
    · exact ⟨serial.regular.bounded other _ opened, by rw [Table.get?_erase, if_pos rfl]⟩
  · change SameTables start.committed.contents later.contents
    rw [publishes]
    exact tables
  · intro other state here
    rw [Table.get?_erase] at here
    split at here
    case isTrue => cases here
    case isFalse differs =>
      change Standing start later (work other past) state
      cases serial.standing other state here with
      | reader viewed runs =>
        refine .reader ?_ runs
        intro seen same
        obtain ⟨sameTables, older, current⟩ := viewed seen same
        rcases advances with rfl | advanced
        · exact ⟨sameTables, older, current⟩
        · exact ⟨sameTables, by omega, fun equal => by omega⟩
      | writer =>
        have held := Database.holdsLock_iff.mpr ⟨_, here, rfl⟩
        rw [serial.regular.alone holds other differs] at held
        cases held
  · obtain ⟨final, ran, same, quiet⟩ := serial.serial
    rw [← same] at runs
    obtain ⟨last, ranLast, reached, still⟩ := alone_of_runs quiet runs
    refine ⟨last, ?_, reached.trans publishes.symm, still⟩
    rw [publishing, List.map_append, List.map_append]
    exact serially_snoc ran ranLast

theorem moved (serial : Serial start past db) (moved : Moved stores db event next) :
    Serial start ((db, event) :: past) next := by
  have regular := moved.regular serial.regular
  cases moved with
  | idle failed => exact serial.idle failed
  | begun => exact serial.begun regular
  | begunRead => exact serial.begunRead regular
  | glimpsed opened confined glimpse steady =>
    exact serial.glimpsed regular opened confined glimpse steady
  | wrote opened confined untouched steady =>
    exact serial.wrote opened regular confined untouched steady
  | published opened => exact serial.publish opened regular rfl (.inr rfl)
  | @closed tx state opened unchanged =>
    rcases serial.regular.states tx state opened with ⟨view, rfl⟩ | ⟨contents, changed, rfl⟩
    · refine serial.close tx (fun _ => rfl) ?_
      have free : db.holdsLock tx = false := by rw [Database.holdsLock, opened]; rfl
      rw [published, free]
      rfl
    · refine serial.publish opened regular ?_ (.inl rfl)
      cases serial.standing tx _ opened with
      | writer _ untouched _ => exact (untouched unchanged).symm
  | @discarded tx event ended =>
    rcases ended with rfl | rfl
    · exact serial.close tx (fun _ => rfl) rfl
    · exact serial.close tx (fun _ => rfl) rfl

theorem start_serial (quiet : start.opened = .empty) : Serial start ([] : stores.Past) start where
  regular :=
    { bounded := by simp [quiet]
      states := by simp [quiet]
      single := by simp [Database.holdsLock, quiet] }
  unbegun _ _ := rfl
  ended := by simp [published]
  tables := sameTables_refl _
  standing := by simp [quiet]
  serial := ⟨start, rfl, rfl, quiet⟩

end Serial

end

end DocStore.Stores
