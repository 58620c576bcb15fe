import DocStore.Proofs.Database.Serial

namespace DocStore.Stores

open Database (Confined Glimpse Regular LegibleTo SameTables)

variable {Store : Type} {stores : Stores Store}

/-- The write lock could not be taken. -/
def LockRefused (outcome : Except StoreError stores.Replied) : Prop :=
  outcome = .error (.ofDatabase (.execute .locked)) ∨ outcome = .error (.ofDatabase (.execute .stale))

/-- Whatever an open transaction asked, it got the reply of one state of the contents, unless it needed
the write lock there and could not take it. -/
def Agrees (tx : Nat) (past : stores.Past) (contents : Contents) : Prop :=
  ∀ db asked outcome, (db, .asked tx asked outcome) ∈ past → db.opened.get? tx ≠ none →
    outcome = stores.readAlone contents asked ∨
      LockRefused outcome ∧ stores.locksAlone contents asked = true

section

variable {asked : stores.Asked} {meaning : StoreAction Contents stores.Replied} {needs : Contents → Prop}

/-- A database that only one transaction uses, which has not looked at anything yet. -/
def unread (contents : Contents) : Database := { still contents with next := 2 }.reading 1 none

/-- What a request comes to in a read transaction of its own. -/
theorem askStill_glimpse (confined : Confined (fun tx => stores.ask tx asked) meaning needs)
    {contents : Contents} {outcome : Except StoreError stores.Replied} {next : Database}
    (ended : stores.askStill contents asked = (outcome, next)) :
    Glimpse meaning needs (unread contents) 1 ⟨contents, 0⟩ outcome next := by
  have begun : Database.beginRead (still contents) = (.ok 1, unread contents) := rfl
  rw [askStill, Action.bind_of_ok begun] at ended
  exact confined.glimpse Database.opened_reading ended

/-- Nobody else can have taken the lock there, nor committed anything. -/
theorem not_refused_still {contents : Contents} {refusal : Refusal}
    (why : refusal = .locked ∧ (unread contents).isLocked = true ∨
      refusal = .stale ∧ (0 : Nat) ≠ (unread contents).committed.version) : False := by
  rcases why with ⟨_, locked⟩ | ⟨_, stale⟩
  · have free : (unread contents).isLocked = false := rfl
    rw [free] at locked
    cases locked
  · exact stale rfl

theorem readAlone_eq (confined : Confined (fun tx => stores.ask tx asked) meaning needs)
    (contents : Contents) : stores.readAlone contents asked = (meaning contents).1 := by
  rcases ended : stores.askStill contents asked with ⟨outcome, next⟩
  rw [readAlone, ended]
  change outcome = _
  cases askStill_glimpse confined ended with
  | idle _ same => rw [same contents (Database.sameTables_refl _)]
  | looked _ same => exact congrArg Prod.fst same.symm
  | took _ _ same => exact congrArg Prod.fst same.symm
  | refused _ why => exact (not_refused_still why).elim

/-- Where a request needs the write lock it takes it, if nobody else has it. -/
theorem locksAlone_of_needs (confined : Confined (fun tx => stores.ask tx asked) meaning needs)
    {contents : Contents} (needed : needs contents) : stores.locksAlone contents asked = true := by
  rcases ended : stores.askStill contents asked with ⟨outcome, next⟩
  rw [locksAlone, ended]
  cases askStill_glimpse confined ended with
  | idle unneeded => exact absurd needed unneeded
  | looked unneeded => exact absurd needed unneeded
  | took => exact Database.isLocked_iff.mpr ⟨1, _, Database.opened_writing, rfl⟩
  | refused _ why => exact (not_refused_still why).elim

end

theorem Agrees.cons {tx : Nat} {past : stores.Past} {contents : Contents} {db : Database}
    {event : stores.Event} (agrees : Agrees tx past contents)
    (new : ∀ asked outcome, event = .asked tx asked outcome → db.opened.get? tx ≠ none →
      outcome = stores.readAlone contents asked ∨
        LockRefused outcome ∧ stores.locksAlone contents asked = true) :
    Agrees tx ((db, event) :: past) contents := by
  intro before asked outcome member opened
  rcases List.mem_cons.mp member with same | earlier
  · cases same
    exact new asked outcome rfl opened
  · exact agrees before asked outcome earlier opened

/-- Up to now every transaction without the write lock has read one committed state. -/
structure Fixed (start : Database) (past : stores.Past) (db : Database) : Prop where
  unbegun : ∀ tx, db.next ≤ tx → ∀ before ∈ visited past db, before.opened.get? tx = none
  reader : ∀ tx view, db.opened.get? tx = some ⟨view, false, false⟩ →
    (∀ seen, view = some seen → ∃ before ∈ visited past db, before.opened.get? tx ≠ none ∧
      before.committed = seen) ∧
    ∀ contents, MaySee start view contents → Agrees tx past contents
  ended : ∀ tx, db.opened.get? tx = none → (∃ before ∈ visited past db, before.opened.get? tx ≠ none) →
    (∀ before ∈ visited past db, before.holdsLock tx = false) →
    ∃ before ∈ visited past db, before.opened.get? tx ≠ none ∧ Agrees tx past before.committed.contents

namespace Fixed

variable {start db next : Database} {past : stores.Past} {event : stores.Event} {tx : Nat}

theorem state (fixed : Fixed start past db) (serial : Serial start past db) {view : Option Snapshot}
    (opened : db.opened.get? tx = some ⟨view, false, false⟩) :
    ∃ before ∈ visited past db, before.opened.get? tx ≠ none ∧
      Agrees tx past before.committed.contents := by
  obtain ⟨viewed, agrees⟩ := fixed.reader tx view opened
  cases view with
  | none => exact ⟨db, List.mem_cons_self, by simp [opened], agrees _ ⟨serial.tables, by simp⟩⟩
  | some seen =>
    obtain ⟨before, member, here, same⟩ := viewed seen rfl
    refine ⟨before, member, here, agrees _ ⟨?_, by simp [same]⟩⟩
    rw [same]
    cases serial.standing tx _ opened with
    | reader viewed _ => exact (viewed seen rfl).tables

theorem unbegun_cons (fixed : Fixed start past db) (regular : Regular next)
    (later : db.next ≤ next.next) :
    ∀ tx, next.next ≤ tx → ∀ before ∈ visited ((db, event) :: past) next,
      before.opened.get? tx = none := by
  intro tx beyond before member
  rcases List.mem_cons.mp member with rfl | earlier
  · cases opened : before.opened.get? tx with
    | none => rfl
    | some state => exact absurd (regular.bounded tx state opened) (by omega)
  · exact fixed.unbegun tx (later.trans beyond) before earlier

theorem keep (fixed : Fixed start past db) (serial : Serial start past db) (regular : Regular next)
    (later : db.next ≤ next.next)
    (outside : ∀ tx asked outcome, event = .asked tx asked outcome → db.opened.get? tx = none)
    (readers : ∀ tx view, next.opened.get? tx = some ⟨view, false, false⟩ →
      db.opened.get? tx = some ⟨view, false, false⟩ ∨ view = none ∧ tx = db.next) :
    Fixed start ((db, event) :: past) next := by
  have cons {tx : Nat} {contents : Contents} (agrees : Agrees tx past contents) :
      Agrees tx ((db, event) :: past) contents :=
    agrees.cons fun asked outcome same opened => absurd (outside tx asked outcome same) opened
  refine ⟨fixed.unbegun_cons regular later, ?_, ?_⟩
  · intro tx view opened
    rcases readers tx view opened with before | ⟨rfl, rfl⟩
    · obtain ⟨viewed, agrees⟩ := fixed.reader tx view before
      refine ⟨?_, fun contents maySee => cons (agrees contents maySee)⟩
      intro seen same
      obtain ⟨state, member, found⟩ := viewed seen same
      exact ⟨state, List.mem_cons_of_mem _ member, found⟩
    · refine ⟨by simp, fun contents _ => cons ?_⟩
      intro before asked outcome member here
      have visitedBefore : before ∈ visited past db :=
        List.mem_cons_of_mem _ (List.mem_map.mpr ⟨_, member, rfl⟩)
      exact absurd (fixed.unbegun _ (Nat.le_refl _) before visitedBefore) here
  · intro tx closed used free
    have free (before : Database) (member : before ∈ visited past db) : before.holdsLock tx = false :=
      free before (List.mem_cons_of_mem _ member)
    have found : ∃ before ∈ visited past db, before.opened.get? tx ≠ none ∧
        Agrees tx past before.committed.contents := by
      cases opened : db.opened.get? tx with
      | none =>
        refine fixed.ended tx opened ?_ free
        obtain ⟨before, member, here⟩ := used
        rcases List.mem_cons.mp member with rfl | earlier
        · exact absurd closed here
        · exact ⟨before, earlier, here⟩
      | some state =>
        rcases serial.regular.states tx state opened with ⟨view, rfl⟩ | ⟨contents, changed, rfl⟩
        · exact fixed.state serial opened
        · have held := Database.holdsLock_iff.mpr ⟨_, opened, rfl⟩
          rw [free db List.mem_cons_self] at held
          cases held
    obtain ⟨before, member, here, agrees⟩ := found
    exact ⟨before, List.mem_cons_of_mem _ member, here, cons agrees⟩

theorem ask (fixed : Fixed start past db) (regular : Regular next) {asked : stores.Asked}
    {outcome : Except StoreError stores.Replied} {state : OpenTransaction}
    (opened : db.opened.get? tx = some state) (later : next.next = db.next)
    (others : ∀ other, other ≠ tx → next.opened.get? other = db.opened.get? other)
    (still : next.opened.get? tx ≠ none)
    (reader : ∀ view, next.opened.get? tx = some ⟨view, false, false⟩ →
      (∀ seen, view = some seen → ∃ before ∈ visited past db, before.opened.get? tx ≠ none ∧
        before.committed = seen) ∧
      ∀ contents, MaySee start view contents →
        Agrees tx ((db, .asked tx asked outcome) :: past) contents) :
    Fixed start ((db, .asked tx asked outcome) :: past) next := by
  have cons {other : Nat} {contents : Contents} (differs : other ≠ tx)
      (agrees : Agrees other past contents) :
      Agrees other ((db, .asked tx asked outcome) :: past) contents := by
    refine agrees.cons fun asked outcome same _ => ?_
    cases same
    exact absurd rfl differs
  refine ⟨fixed.unbegun_cons regular later.ge, ?_, ?_⟩
  · intro other view here
    by_cases same : other = tx
    · subst same
      obtain ⟨viewed, agrees⟩ := reader view here
      refine ⟨?_, agrees⟩
      intro seen same
      obtain ⟨before, member, found⟩ := viewed seen same
      exact ⟨before, List.mem_cons_of_mem _ member, found⟩
    · rw [others other same] at here
      obtain ⟨viewed, agrees⟩ := fixed.reader other view here
      refine ⟨?_, fun contents maySee => cons same (agrees contents maySee)⟩
      intro seen same
      obtain ⟨before, member, found⟩ := viewed seen same
      exact ⟨before, List.mem_cons_of_mem _ member, found⟩
  · intro other closed used free
    have differs : other ≠ tx := by
      rintro rfl
      exact still closed
    have closedBefore := closed
    rw [others other differs] at closedBefore
    obtain ⟨before, member, here, agrees⟩ := fixed.ended other closedBefore (by
      obtain ⟨before, member, here⟩ := used
      rcases List.mem_cons.mp member with rfl | earlier
      · exact absurd closed here
      · exact ⟨before, earlier, here⟩) fun before member => free before (List.mem_cons_of_mem _ member)
    exact ⟨before, List.mem_cons_of_mem _ member, here, cons differs agrees⟩

theorem glimpsed (fixed : Fixed start past db) (serial : Serial start past db)
    (regular : Regular next) {view : Option Snapshot} {asked : stores.Asked}
    {outcome : Except StoreError stores.Replied} {meaning : StoreAction Contents stores.Replied}
    {needs : Contents → Prop} (opened : db.opened.get? tx = some ⟨view, false, false⟩)
    (confined : Confined (fun tx => stores.ask tx asked) meaning needs)
    (glimpse : Glimpse meaning needs db tx (view.getD db.committed) outcome next) :
    Fixed start ((db, .asked tx asked outcome) :: past) next := by
  obtain ⟨viewed, agrees⟩ := fixed.reader tx view opened
  obtain ⟨sees, may⟩ := serial.sees (by
    cases serial.standing tx _ opened with
    | reader viewed _ => exact viewed)
  have others {state : OpenTransaction} (other : Nat) (differs : other ≠ tx) :
      (db.opened.put tx state).get? other = db.opened.get? other := by
    rw [Table.get?_put, if_neg differs]
  have seen : ∃ before ∈ visited past db, before.opened.get? tx ≠ none ∧
      before.committed = view.getD db.committed := by
    cases view with
    | none => exact ⟨db, List.mem_cons_self, by simp [opened], rfl⟩
    | some seen => exact viewed seen rfl
  cases glimpse with
  | idle _ same =>
    refine fixed.ask regular opened rfl (fun _ _ => rfl) (by simp [opened]) ?_
    intro other here
    rw [opened] at here
    cases here
    refine ⟨viewed, fun contents maySee => (agrees contents maySee).cons ?_⟩
    rintro _ _ ⟨⟩ _
    have means := same contents (sees.tables.symm.trans maySee.1)
    exact .inl (by rw [readAlone_eq confined, means])
  | looked _ same =>
    refine fixed.ask regular opened rfl others (by simp [Database.get?_reading]) ?_
    intro other here
    rw [Database.get?_reading, if_pos rfl] at here
    cases here
    refine ⟨?_, ?_⟩
    · rintro _ ⟨⟩
      exact seen
    · intro contents maySee
      rw [maySee.2 _ rfl]
      refine (agrees _ may).cons ?_
      rintro _ _ ⟨⟩ _
      exact .inl (by rw [readAlone_eq confined, same])
  | took =>
    refine fixed.ask regular opened rfl others (by simp [Database.get?_writing]) ?_
    intro other here
    rw [Database.get?_writing, if_pos rfl] at here
    cases here
  | @refused refusal _ needed why kept =>
    have lockRefused : LockRefused (.error (.ofDatabase (.execute refusal)) :
        Except StoreError stores.Replied) := by
      rcases why with ⟨rfl, _⟩ | ⟨rfl, _⟩
      · exact .inl rfl
      · exact .inr rfl
    rcases kept with ⟨rfl, all⟩ | rfl
    · refine fixed.ask regular opened rfl (fun _ _ => rfl) (by simp [opened]) ?_
      intro other here
      rw [opened] at here
      cases here
      refine ⟨viewed, fun contents maySee => (agrees contents maySee).cons ?_⟩
      rintro _ _ ⟨⟩ _
      have needed := all contents (sees.tables.symm.trans maySee.1)
      exact .inr ⟨lockRefused, locksAlone_of_needs confined needed⟩
    · refine fixed.ask regular opened rfl others (by simp [Database.get?_reading]) ?_
      intro other here
      rw [Database.get?_reading, if_pos rfl] at here
      cases here
      refine ⟨?_, ?_⟩
      · rintro _ ⟨⟩
        exact seen
      · intro contents maySee
        rw [maySee.2 _ rfl]
        refine (agrees _ may).cons ?_
        rintro _ _ ⟨⟩ _
        exact .inr ⟨lockRefused, locksAlone_of_needs confined needed⟩

theorem moved (fixed : Fixed start past db) (serial : Serial start past db)
    (moved : Moved stores db event next) : Fixed start ((db, event) :: past) next := by
  have regular := moved.regular serial.regular
  have closing (tx other : Nat) (view : Option Snapshot)
      (opened : (db.opened.erase tx).get? other = some ⟨view, false, false⟩) :
      db.opened.get? other = some ⟨view, false, false⟩ := by
    rw [Table.get?_erase] at opened
    split at opened
    case isTrue => cases opened
    case isFalse => exact opened
  cases moved with
  | idle _ outside =>
    exact fixed.keep serial regular (Nat.le_refl _) outside fun _ _ opened => .inl opened
  | begun =>
    refine fixed.keep serial regular (Nat.le_succ _) (by simp) fun tx view opened => .inl ?_
    rw [Database.get?_writing] at opened
    split at opened
    case isTrue => cases opened
    case isFalse => exact opened
  | begunRead =>
    refine fixed.keep serial regular (Nat.le_succ _) (by simp) fun tx view opened => ?_
    rw [Database.get?_reading] at opened
    split at opened
    case isTrue same => cases opened; exact .inr ⟨rfl, same⟩
    case isFalse => exact .inl opened
  | glimpsed opened confined glimpse _ => exact fixed.glimpsed serial regular opened confined glimpse
  | wrote opened =>
    refine fixed.ask regular opened rfl ?_ (by simp [Database.get?_writing]) ?_
    · intro other differs
      rw [Database.get?_writing, if_neg differs]
    · intro other here
      rw [Database.get?_writing, if_pos rfl] at here
      cases here
  | published =>
    exact fixed.keep serial regular (Nat.le_refl _) (by simp) fun _ _ opened =>
      .inl (closing _ _ _ opened)
  | closed =>
    exact fixed.keep serial regular (Nat.le_refl _) (by simp) fun _ _ opened =>
      .inl (closing _ _ _ opened)
  | @discarded tx event ended =>
    refine fixed.keep serial regular (Nat.le_refl _) ?_ fun _ _ opened => .inl (closing _ _ _ opened)
    rintro _ _ _ rfl
    rcases ended with same | same <;> cases same

theorem start_fixed (quiet : start.opened = .empty) : Fixed start ([] : stores.Past) start where
  unbegun := by simp [visited, quiet]
  reader := by simp [quiet]
  ended := by simp [visited, quiet]

end Fixed

/-- Whether every row of the tables of some stores that an open transaction sees reads back. -/
def legibleNow (stores : Stores Store) (all : List Store) (db : Database) : Bool :=
  db.opened.rows.all fun entry => all.all fun store =>
    ((db.viewOf entry.2).contents.get? (Database.foldName (stores.table store))).all fun rows =>
      rows.rows.all fun row => ((stores.values store).decode? row.2).isSome

theorem legibleTo_of_legibleNow {all : List Store} {db : Database} (complete : ∀ store, store ∈ all)
    (legible : legibleNow stores all db = true) : db.LegibleTo stores := by
  intro tx state opened store key text here
  have entry := Table.get?_eq_some_iff.mp opened
  obtain ⟨rows, present, found⟩ := Option.bind_eq_some_iff.mp here
  have rowsLegible := List.all_eq_true.mp (List.all_eq_true.mp legible _ entry) store (complete store)
  rw [present] at rowsLegible
  have reads := List.all_eq_true.mp rowsLegible _ (Table.get?_eq_some_iff.mp found)
  exact Option.isSome_iff_ne_none.mp reads

/-- A session over the stores of one database, whose rows read back, comes to the same as the transactions
that took the write lock and were committed, with just the requests that succeeded in them, one after
another in the order of their commits: each request gets the same reply, and the same contents are
committed. A transaction that never takes the write lock reads one of the states that were committed
while it was open, except that requests that need the lock may be refused. -/
theorem play_serializable {start db : Database} (quiet : start.opened = .empty)
    {moves : List stores.Move} {past : stores.Past} (played : stores.play moves start = (past, db))
    (legible : ∀ before ∈ visited past db, before.LegibleTo stores) :
    (∃ final, stores.serially ((published past).map fun tx => (work tx past).map Prod.fst) start =
        (.ok ((published past).map fun tx => (work tx past).map Prod.snd), final) ∧
      final.committed.contents = db.committed.contents) ∧
    ∀ tx, (∃ before ∈ visited past db, before.opened.get? tx ≠ none) →
      (∀ before ∈ visited past db, before.holdsLock tx = false) →
      ∃ before ∈ visited past db, before.opened.get? tx ≠ none ∧
        Agrees tx past before.committed.contents := by
  have invariant := play_invariant (LegibleTo stores)
    (fun past db => Serial start past db ∧ Fixed start past db) moves
    ⟨Serial.start_serial quiet, Fixed.start_fixed quiet⟩ (by
      rintro move past db legible ⟨serial, fixed⟩
      have moved := perform_moved serial.regular legible move
      exact ⟨serial.moved moved, fixed.moved serial moved⟩)
    (by rw [played]; exact legible)
  rw [played] at invariant
  obtain ⟨serial, fixed⟩ := invariant
  constructor
  · obtain ⟨final, ran, same, _⟩ := serial.serial
    exact ⟨final, ran, same⟩
  · intro tx used free
    cases opened : db.opened.get? tx with
    | none => exact fixed.ended tx opened used free
    | some state =>
      rcases serial.regular.states tx state opened with ⟨view, rfl⟩ | ⟨contents, changed, rfl⟩
      · exact fixed.state serial opened
      · have held := Database.holdsLock_iff.mpr ⟨_, opened, rfl⟩
        rw [free db List.mem_cons_self] at held
        cases held

/-- A store of JSON values under textual keys. -/
def notes : Stores Unit where
  Key _ := String
  Value _ := Json
  table _ := "notes"
  keys _ := Codec.identifier
  values _ := Codec.json

/-- A reader beside a writer: it looks before the writer commits and once more afterwards. -/
def readBesideWrite : List notes.Move :=
  [.begin (), .beginRead (), .ask 1 ⟨(), .add "a" (Json.boolean true)⟩, .ask 2 ⟨(), .find "a"⟩,
    .commit 1, .ask 2 ⟨(), .find "a"⟩, .commit 2]

/-- A database with no notes. -/
def noNotes : Database := still (.put .empty "notes" .empty)

/-- What the writer has added is committed, and the reader sees one committed state. -/
theorem play_readBesideWrite :
    (∀ before ∈ visited (notes.play readBesideWrite noNotes).1 (notes.play readBesideWrite noNotes).2,
      before.LegibleTo notes) ∧
    published (notes.play readBesideWrite noNotes).1 = [1] ∧
    (∃ final, notes.serially ((published (notes.play readBesideWrite noNotes).1).map fun tx =>
        (work tx (notes.play readBesideWrite noNotes).1).map Prod.fst) noNotes =
        (.ok ((published (notes.play readBesideWrite noNotes).1).map fun tx =>
          (work tx (notes.play readBesideWrite noNotes).1).map Prod.snd), final) ∧
      final.committed.contents = (notes.play readBesideWrite noNotes).2.committed.contents) ∧
    Database.storedIn? (notes.play readBesideWrite noNotes).2.committed.contents "notes"
      Codec.identifier Codec.json "a" = some (.boolean true) ∧
    ∃ before ∈ visited (notes.play readBesideWrite noNotes).1 (notes.play readBesideWrite noNotes).2,
      Agrees 2 (notes.play readBesideWrite noNotes).1 before.committed.contents := by
  have quiet : noNotes.opened = .empty := rfl
  have reads : (visited (notes.play readBesideWrite noNotes).1
      (notes.play readBesideWrite noNotes).2).all (legibleNow notes [()]) = true := by decide +kernel
  have legible := fun before member =>
    legibleTo_of_legibleNow (by simp) (List.all_eq_true.mp reads before member)
  have used : (visited (notes.play readBesideWrite noNotes).1
      (notes.play readBesideWrite noNotes).2).any (fun db => (db.opened.get? 2).isSome) = true := by
    decide +kernel
  have free : (visited (notes.play readBesideWrite noNotes).1
      (notes.play readBesideWrite noNotes).2).all (fun db => !db.holdsLock 2) = true := by
    decide +kernel
  obtain ⟨serial, fixed⟩ := play_serializable quiet (Prod.eta _).symm legible
  obtain ⟨before, member, -, agrees⟩ := fixed 2
    (by simpa [Option.isSome_iff_ne_none] using List.any_eq_true.mp used)
    (fun before member => by simpa using List.all_eq_true.mp free before member)
  exact ⟨legible, by decide +kernel, serial, by decide +kernel, before, member, agrees⟩

end DocStore.Stores
