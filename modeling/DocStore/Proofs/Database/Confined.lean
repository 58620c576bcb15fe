import DocStore.Proofs.Database.Rows
import DocStore.Proofs.Store.Request

/-! What an action inside a transaction depends on, and what it can change. It depends on the contents
that the transaction sees, whatever else is going on; it changes these contents only, and only once the
transaction holds the write lock. -/
namespace DocStore.Database

variable {α β : Type}

/-- What an action comes to in a transaction without the write lock, by what it means for contents and
for which contents it needs the lock. -/
inductive Glimpse (meaning : StoreAction Contents α) (needs : Contents → Prop) (db : Database) (tx : Nat)
    (seen : Snapshot) : Except StoreError α → Database → Prop
  /-- Nothing was looked at but which tables there are. -/
  | idle {outcome} (unneeded : ¬ needs seen.contents)
      (same : ∀ contents, SameTables seen.contents contents → meaning contents = (outcome, contents)) :
      Glimpse meaning needs db tx seen outcome db
  /-- The transaction has looked at what it sees, and sees it from now on. -/
  | looked {outcome} (unneeded : ¬ needs seen.contents)
      (same : meaning seen.contents = (outcome, seen.contents)) :
      Glimpse meaning needs db tx seen outcome (db.reading tx (some seen))
  /-- The transaction has taken the write lock; what it sees is what is committed. -/
  | took {outcome contents touched} (free : db.isLocked = false)
      (current : seen.version = db.committed.version)
      (same : meaning seen.contents = (outcome, contents))
      (untouched : touched = false → contents = seen.contents) :
      Glimpse meaning needs db tx seen outcome (db.writing tx contents touched)
  /-- The write lock could not be taken. -/
  | refused {refusal next} (needed : needs seen.contents)
      (why : refusal = .locked ∧ db.isLocked = true ∨
        refusal = .stale ∧ seen.version ≠ db.committed.version)
      (kept : (next = db ∧ ∀ contents, SameTables seen.contents contents → needs contents) ∨
        next = db.reading tx (some seen)) :
      Glimpse meaning needs db tx seen (.error (.ofDatabase (.execute refusal))) next

/-- Inside any transaction an action does what it means for the contents that the transaction sees, and
takes the write lock where it needs it. -/
structure Confined (action : Nat → StoreAction Database α) (meaning : StoreAction Contents α)
    (needs : Contents → Prop) : Prop where
  tables : ∀ contents, SameTables contents (meaning contents).2
  writing : ∀ (base : Database) tx contents changed, ∃ touched,
    action tx (base.writing tx contents changed) =
        ((meaning contents).1, base.writing tx (meaning contents).2 touched) ∧
      (touched = false → changed = false ∧ (meaning contents).2 = contents)
  reading : ∀ (db : Database) tx view, db.opened.get? tx = some ⟨view, false, false⟩ →
    Glimpse meaning needs db tx (view.getD db.committed) (action tx db).1 (action tx db).2

/-- The contents for which the write lock is needed by an action or by what follows it. -/
def needsAfter (meaning : StoreAction Contents α) (needs : Contents → Prop)
    (later : α → Contents → Prop) (contents : Contents) : Prop :=
  needs contents ∨ ∃ value middle, meaning contents = (.ok value, middle) ∧ later value middle

section

variable {db : Database} {tx : Nat} {view : Option Snapshot}

theorem opened_reading : (db.reading tx view).opened.get? tx = some ⟨view, false, false⟩ := by
  simp [reading]

theorem writing_of_opened {contents : Contents} {changed : Bool}
    (opened : db.opened.get? tx = some ⟨some ⟨contents, db.committed.version⟩, true, changed⟩) :
    db.writing tx contents changed = db := by
  simp only [writing, Table.put_of_get? opened]

theorem reading_reading (first second : Option Snapshot) :
    (db.reading tx first).reading tx second = db.reading tx second := by
  simp only [reading, Table.put_put]

theorem writing_reading (contents : Contents) (changed : Bool) :
    (db.reading tx view).writing tx contents changed = db.writing tx contents changed := by
  simp only [reading, writing, Table.put_put]

/-- Looking at something neither takes the write lock nor gives it back. -/
theorem isLocked_reading (opened : db.opened.get? tx = some ⟨view, false, false⟩)
    (later : Option Snapshot) : (db.reading tx later).isLocked = db.isLocked := by
  rw [Bool.eq_iff_iff, isLocked_iff, isLocked_iff]
  constructor
  · intro given
    obtain ⟨other, state, found, writes⟩ := given
    simp only [reading, Table.get?_put] at found
    split at found
    case isTrue => cases found; cases writes
    case isFalse => exact ⟨other, state, found, writes⟩
  · intro given
    obtain ⟨other, state, found, writes⟩ := given
    refine ⟨other, state, ?_, writes⟩
    have differs : other ≠ tx := by
      rintro rfl
      rw [opened] at found
      cases found
      cases writes
    simp only [reading, Table.get?_put, if_neg differs, found]

end

namespace Glimpse

variable {meaning : StoreAction Contents α} {needs : Contents → Prop}
  {later : α → StoreAction Contents β} {laterNeeds : α → Contents → Prop} {db next : Database} {tx : Nat}
  {seen : Snapshot} {value : α} {outcome : Except StoreError β}

theorem taken {outcome : Except StoreError α} {contents : Contents} {touched : Bool}
    (free : db.isLocked = false) (current : seen.version = db.committed.version)
    (same : meaning seen.contents = (outcome, contents))
    (untouched : touched = false → contents = seen.contents) :
    Glimpse meaning needs db tx seen outcome
      { db with opened := db.opened.put tx ⟨some ⟨contents, seen.version⟩, true, touched⟩ } := by
  have took : Glimpse meaning needs db tx seen outcome (db.writing tx contents touched) :=
    .took free current same untouched
  rw [writing, ← current] at took
  exact took

theorem fail {error : StoreError} (glimpse : Glimpse meaning needs db tx seen (.error error) next) :
    Glimpse (meaning >>= later) (needsAfter meaning needs laterNeeds) db tx seen (.error error) next := by
  have unneededAfter (unneeded : ¬ needs seen.contents) {contents : Contents}
      (same : meaning seen.contents = (.error error, contents)) :
      ¬ needsAfter meaning needs laterNeeds seen.contents := by
    rintro (needed | ⟨_, _, means, _⟩)
    · exact unneeded needed
    · rw [same] at means
      cases means
  cases glimpse with
  | idle unneeded same =>
    exact .idle (unneededAfter unneeded (same _ (sameTables_refl _)))
      fun contents tables => Action.bind_of_error (same contents tables)
  | looked unneeded same =>
    exact .looked (unneededAfter unneeded same) (Action.bind_of_error same)
  | took free current same untouched =>
    exact .took free current (Action.bind_of_error same) untouched
  | refused needed why kept =>
    refine .refused (.inl needed) why (kept.imp_left fun ⟨same, all⟩ => ⟨same, ?_⟩)
    exact fun contents tables => .inl (all contents tables)

/-- Where an action did not need the write lock, it takes what follows to need it. -/
theorem needsAfter_iff (laterNeeds : α → Contents → Prop) (unneeded : ¬ needs seen.contents)
    (same : meaning seen.contents = (.ok value, seen.contents)) :
    needsAfter meaning needs laterNeeds seen.contents ↔ laterNeeds value seen.contents := by
  constructor
  · rintro (needed | ⟨_, _, means, needed⟩)
    · exact absurd needed unneeded
    · rw [same] at means
      cases means
      exact needed
  · intro needed
    exact .inr ⟨value, _, same, needed⟩

theorem after_idle (unneeded : ¬ needs seen.contents)
    (same : ∀ contents, SameTables seen.contents contents → meaning contents = (.ok value, contents))
    (glimpse : Glimpse (later value) (laterNeeds value) db tx seen outcome next) :
    Glimpse (meaning >>= later) (needsAfter meaning needs laterNeeds) db tx seen outcome next := by
  have here := same seen.contents (sameTables_refl _)
  have needs := needsAfter_iff laterNeeds unneeded here
  cases glimpse with
  | idle quiet further =>
    exact .idle (mt needs.mp quiet) fun contents tables =>
      (Action.bind_of_ok (same contents tables)).trans (further contents tables)
  | looked quiet further => exact .looked (mt needs.mp quiet) ((Action.bind_of_ok here).trans further)
  | took free current further untouched =>
    exact .took free current ((Action.bind_of_ok here).trans further) untouched
  | refused needed why kept =>
    refine .refused (needs.mpr needed) why (kept.imp_left fun ⟨unmoved, all⟩ => ⟨unmoved, ?_⟩)
    exact fun contents tables => .inr ⟨value, contents, same contents tables, all contents tables⟩

/-- What follows a look sees what was looked at. -/
theorem after_looked {view : Option Snapshot} (opened : db.opened.get? tx = some ⟨view, false, false⟩)
    (unneeded : ¬ needs seen.contents) (same : meaning seen.contents = (.ok value, seen.contents))
    (glimpse : Glimpse (later value) (laterNeeds value) (db.reading tx (some seen)) tx seen outcome next) :
    Glimpse (meaning >>= later) (needsAfter meaning needs laterNeeds) db tx seen outcome next := by
  have needs := needsAfter_iff laterNeeds unneeded same
  cases glimpse with
  | idle quiet further =>
    exact .looked (mt needs.mp quiet) ((Action.bind_of_ok same).trans (further _ (sameTables_refl _)))
  | looked quiet further =>
    rw [reading_reading]
    exact .looked (mt needs.mp quiet) ((Action.bind_of_ok same).trans further)
  | took free current further untouched =>
    rw [writing_reading]
    rw [isLocked_reading opened] at free
    exact .took free current ((Action.bind_of_ok same).trans further) untouched
  | refused needed why kept =>
    rw [isLocked_reading opened] at why
    rw [reading_reading] at kept
    exact .refused (needs.mpr needed) why (.inr (kept.elim And.left id))

end Glimpse

namespace Confined

theorem ofExcept (outcome : Except StoreError α) :
    Confined (fun _ => Action.ofExcept outcome) (Action.ofExcept outcome) fun _ => False where
  tables := sameTables_refl
  writing _ _ _ changed := ⟨changed, rfl, fun untouched => ⟨untouched, rfl⟩⟩
  reading _ _ _ _ := .idle id fun _ _ => rfl

theorem pure (value : α) :
    Confined (fun _ => (Pure.pure value : StoreAction Database α)) (Pure.pure value) fun _ => False :=
  .ofExcept (.ok value)

theorem throw (error : StoreError) :
    Confined (fun _ => (MonadExcept.throw error : StoreAction Database α)) (MonadExcept.throw error)
      fun _ => False :=
  .ofExcept (.error error)

variable {first : Nat → StoreAction Database α} {meaning : StoreAction Contents α}
  {needs : Contents → Prop} {rest : α → Nat → StoreAction Database β}
  {later : α → StoreAction Contents β} {laterNeeds : α → Contents → Prop}

theorem glimpse {db next : Database} {tx : Nat} {view : Option Snapshot} {outcome : Except StoreError α}
    (confined : Confined first meaning needs) (opened : db.opened.get? tx = some ⟨view, false, false⟩)
    (ended : first tx db = (outcome, next)) :
    Glimpse meaning needs db tx (view.getD db.committed) outcome next := by
  have glimpse := confined.reading db tx view opened
  rw [ended] at glimpse
  exact glimpse

/-- What is done one after the other means what its parts mean one after the other. -/
theorem bind (confined : Confined first meaning needs)
    (further : ∀ value, Confined (rest value) (later value) (laterNeeds value)) :
    Confined (fun tx => first tx >>= fun value => rest value tx) (meaning >>= later)
      (needsAfter meaning needs laterNeeds) where
  tables contents := by
    have before := confined.tables contents
    rw [Action.bind_apply]
    rcases ended : meaning contents with ⟨error | value, middle⟩
    · rw [ended] at before
      exact before
    · rw [ended] at before
      exact before.trans ((further value).tables middle)
  writing base tx contents changed := by
    obtain ⟨touched, same, untouched⟩ := confined.writing base tx contents changed
    rw [Action.bind_apply, Action.bind_apply]
    rcases ended : meaning contents with ⟨error | value, middle⟩
    · rw [ended] at same untouched
      rw [same]
      exact ⟨touched, rfl, untouched⟩
    · rw [ended] at same untouched
      obtain ⟨again, after, unchanged⟩ := (further value).writing base tx middle touched
      rw [same]
      refine ⟨again, after, ?_⟩
      intro quiet
      obtain ⟨still, kept⟩ := unchanged quiet
      obtain ⟨start, unmoved⟩ := untouched still
      exact ⟨start, kept.trans unmoved⟩
  reading db tx view opened := by
    rcases ended : first tx db with ⟨error | value, middle⟩
    · rw [Action.bind_of_error ended]
      exact (confined.glimpse opened ended).fail
    · rw [Action.bind_of_ok ended]
      cases confined.glimpse opened ended with
      | idle unneeded same => exact ((further value).reading _ tx view opened).after_idle unneeded same
      | looked unneeded same =>
        exact ((further value).reading _ tx _ opened_reading).after_looked opened unneeded same
      | @took _ contents touched free current same untouched =>
        obtain ⟨again, after, unchanged⟩ := (further value).writing db tx contents touched
        rw [after]
        refine .took free current (Action.bind_of_ok same) ?_
        intro quiet
        obtain ⟨still, kept⟩ := unchanged quiet
        exact kept.trans (untouched still)

theorem map (f : α → β) (confined : Confined first meaning needs) :
    Confined (fun tx => f <$> first tx) (f <$> meaning) (needsAfter meaning needs fun _ _ => False) :=
  confined.bind fun value => .pure (f value)

end Confined

def selectIn (table key : String) : StoreAction Contents (Option String) := fun contents =>
  match contents.get? (foldName table) with
  | none => (.error (.ofDatabase (.execute (.missingTable table))), contents)
  | some rows => (.ok (rows.get? key), contents)

def modifyIn (table : String) (change : Rows → α × Option Rows) : StoreAction Contents α :=
  fun contents =>
    match contents.get? (foldName table) with
    | none => (.error (.ofDatabase (.execute (.missingTable table))), contents)
    | some rows => (.ok (change rows).1, match (change rows).2 with
      | none => contents
      | some later => contents.put (foldName table) later)

theorem confined_select (table key : String) :
    Confined (fun tx => select table tx key) (selectIn table key) fun _ => False where
  tables contents := by
    rw [selectIn]
    split <;> exact sameTables_refl contents
  writing base tx contents changed := by
    refine ⟨changed, ?_, fun untouched => ⟨untouched, ?_⟩⟩
    · rw [selectIn]
      split
      case h_1 missing => exact select_missing opened_writing missing
      case h_2 rows present => rw [select_writing present]
    · rw [selectIn]
      split <;> rfl
  reading db tx view opened := by
    cases present : (view.getD db.committed).contents.get? (foldName table) with
    | none =>
      rw [select_missing opened present]
      refine .idle id fun contents tables => ?_
      rw [selectIn, tables.get?_eq_none present]
    | some rows =>
      rw [select_open opened present]
      exact .looked id (by rw [selectIn, present])

theorem confined_modify (table : String) (change : Rows → α × Option Rows) :
    Confined (fun tx => modify table tx change) (modifyIn table change)
      fun contents => contents.get? (foldName table) ≠ none where
  tables contents := by
    rw [modifyIn]
    split
    case h_1 => exact sameTables_refl contents
    case h_2 rows present =>
      dsimp only
      split
      case h_1 => exact sameTables_refl contents
      case h_2 later _ => exact sameTables_put present later
  writing base tx contents changed := by
    rw [modifyIn]
    split
    case h_1 missing =>
      refine ⟨changed, ?_, fun untouched => ⟨untouched, rfl⟩⟩
      exact modify_missing opened_writing missing
    case h_2 rows present =>
      rw [modify_writing present]
      rcases change rows with ⟨answer, _ | later⟩
      · exact ⟨changed, rfl, fun untouched => ⟨untouched, rfl⟩⟩
      · exact ⟨true, rfl, fun untouched => by cases untouched⟩
  reading db tx view opened := by
    have sees : db.viewOf ⟨view, false, false⟩ = view.getD db.committed := rfl
    cases present : (view.getD db.committed).contents.get? (foldName table) with
    | none =>
      rw [modify_missing opened present]
      refine .idle (by simp [present]) fun contents tables => ?_
      rw [modifyIn, tables.get?_eq_none present]
    | some rows =>
      have needed (contents : Contents) (tables : SameTables (view.getD db.committed).contents contents) :
          contents.get? (foldName table) ≠ none := by
        rw [← Option.isSome_iff_ne_none, tables, present]
        rfl
      simp only [modify, opened, sees, present, Bool.not_false, Bool.true_and]
      split
      case isTrue locked =>
        exact .refused (by simp [present]) (.inl ⟨rfl, locked⟩) (.inl ⟨rfl, needed⟩)
      case isFalse free =>
      split
      case isTrue stale =>
        exact .refused (by simp [present]) (.inr ⟨rfl, by simpa using stale⟩) (.inl ⟨rfl, needed⟩)
      case isFalse current =>
        have version : (view.getD db.committed).version = db.committed.version := by simpa using current
        have unlocked : db.isLocked = false := by simpa using free
        rcases made : change rows with ⟨answer, _ | later⟩
        · have means : modifyIn table change (view.getD db.committed).contents =
              (.ok answer, (view.getD db.committed).contents) := by simp only [modifyIn, present, made]
          exact .taken unlocked version means fun _ => rfl
        · have means : modifyIn table change (view.getD db.committed).contents =
              (.ok answer, (view.getD db.committed).contents.put (foldName table) later) := by
            simp only [modifyIn, present, made]
          exact .taken unlocked version means fun touched => by cases touched

/-- The action means something for contents and does no more than that. -/
def IsConfined (action : Nat → StoreAction Database α) : Prop :=
  ∃ meaning needs, Confined action meaning needs

namespace IsConfined

theorem bind {first : Nat → StoreAction Database α} {rest : α → Nat → StoreAction Database β}
    (confined : IsConfined first) (further : ∀ value, IsConfined (rest value)) :
    IsConfined fun tx => first tx >>= fun value => rest value tx := by
  obtain ⟨meaning, needs, confined⟩ := confined
  choose later laterNeeds confinedLater using further
  exact ⟨_, _, confined.bind confinedLater⟩

theorem map (f : α → β) {first : Nat → StoreAction Database α} (confined : IsConfined first) :
    IsConfined fun tx => f <$> first tx := by
  obtain ⟨meaning, needs, confined⟩ := confined
  exact ⟨_, _, confined.map f⟩

theorem ofExcept (outcome : Except StoreError α) : IsConfined fun _ => Action.ofExcept outcome :=
  ⟨_, _, .ofExcept outcome⟩

theorem pure (value : α) : IsConfined fun _ => (Pure.pure value : StoreAction Database α) :=
  ⟨_, _, .pure value⟩

theorem throw (error : StoreError) :
    IsConfined fun _ => (MonadExcept.throw error : StoreAction Database α) := ⟨_, _, .throw error⟩

end IsConfined

section

variable {κ ν : Type} (table : String) (keys : Codec κ) (values : Codec ν)

theorem isConfined_written (codec : Codec α) (value : α) : IsConfined fun _ => written codec value :=
  .ofExcept _

theorem isConfined_readable (codec : Codec α) (text : String) :
    IsConfined fun _ => readable codec text := by
  unfold readable
  split
  · exact .pure _
  · exact .throw _

theorem isConfined_select (key : String) : IsConfined fun tx => select table tx key :=
  ⟨_, _, confined_select table key⟩

theorem isConfined_modify (change : Rows → α × Option Rows) :
    IsConfined fun tx => modify table tx change := ⟨_, _, confined_modify table change⟩

theorem isConfined_find (key : κ) : IsConfined fun tx => find table keys values tx key := by
  refine (isConfined_written keys key).bind fun text =>
    (isConfined_select table text).bind fun row => ?_
  cases row with
  | none => exact .pure none
  | some text => exact (isConfined_readable values text).bind fun value => .pure (some value)

theorem isConfined_get (key : κ) : IsConfined fun tx => get table keys values tx key := by
  refine (isConfined_find table keys values key).bind fun found => ?_
  cases found with
  | none => exact .throw .keyNotFound
  | some value => exact .pure value

theorem isConfined_add (key : κ) (value : ν) :
    IsConfined fun tx => add table keys values tx key value :=
  (isConfined_written keys key).bind fun _ => (isConfined_written values value).bind fun _ =>
    isConfined_modify table _

theorem isConfined_remove (key : κ) : IsConfined fun tx => remove table keys values tx key := by
  refine (isConfined_written keys key).bind fun text =>
    (isConfined_select table text).bind fun row => ?_
  cases row with
  | none => exact .pure none
  | some held =>
    exact (isConfined_modify table _).bind fun _ => (isConfined_readable values held).bind fun value =>
      .pure (some value)

theorem isConfined_getOrAdd (key : κ) (build : κ → ν) :
    IsConfined fun tx => getOrAdd table keys values tx key build := by
  refine (isConfined_find table keys values key).bind fun found => ?_
  cases found with
  | some value => exact .pure value
  | none =>
    exact (isConfined_written keys key).bind fun _ => (isConfined_written values _).bind fun _ =>
      (isConfined_modify table _).bind fun _ => .pure _

theorem isConfined_addOrUpdate (key : κ) (first : ν) (update : κ → ν → ν) :
    IsConfined fun tx => addOrUpdate table keys values tx key first update :=
  (isConfined_find table keys values key).bind fun _ => (isConfined_written keys key).bind fun _ =>
    (isConfined_written values _).bind fun _ => (isConfined_modify table _).bind fun _ => .pure _

/-- Every request to a store is confined to what its transaction sees. -/
theorem isConfined_answer (request : Request κ ν) :
    IsConfined fun tx => (store table keys values).answer tx request := by
  cases request with
  | get key => exact (isConfined_get table keys values key).map _
  | find key => exact (isConfined_find table keys values key).map _
  | add key value => exact (isConfined_add table keys values key value).map _
  | remove key => exact (isConfined_remove table keys values key).map _
  | getOrAdd key build => exact (isConfined_getOrAdd table keys values key build).map _
  | addOrUpdate key first update =>
    exact (isConfined_addOrUpdate table keys values key first update).map _

end

section

variable {γ : Type} {world : Database} {action : StoreAction Database α}
  {rest : α → StoreAction Database β}

/-- In this world the action fails and does nothing. -/
def FailsAt (world : Database) (action : StoreAction Database α) : Prop :=
  ∃ error, action world = (.error error, world)

/-- In this world the action does nothing. -/
def KeepsAt (world : Database) (action : StoreAction Database α) : Prop := (action world).2 = world

/-- In this world the action does nothing if it fails. -/
def FailsIdleAt (world : Database) (action : StoreAction Database α) : Prop :=
  ∀ error next, action world = (.error error, next) → next = world

theorem FailsAt.bind (fails : FailsAt world action) : FailsAt world (action >>= rest) := by
  obtain ⟨error, failed⟩ := fails
  exact ⟨error, Action.bind_of_error failed⟩

theorem FailsAt.map (fails : FailsAt world action) (f : α → β) : FailsAt world (f <$> action) :=
  fails.bind

theorem FailsAt.failsIdle (fails : FailsAt world action) : FailsIdleAt world action := by
  obtain ⟨cause, ended⟩ := fails
  intro error next failed
  rw [ended] at failed
  cases failed
  rfl

theorem failsAt_written {codec : Codec γ} {value : γ} {further : String → StoreAction Database β}
    (fails : ∀ text, FailsAt world (further text)) : FailsAt world (written codec value >>= further) := by
  rw [written]
  cases codec.encode value with
  | error reason => exact ⟨_, rfl⟩
  | ok text => exact fails text

theorem KeepsAt.bind (keeps : KeepsAt world action) (further : ∀ value, KeepsAt world (rest value)) :
    KeepsAt world (action >>= rest) := by
  rw [KeepsAt, Action.bind_apply]
  rcases ended : action world with ⟨error | value, next⟩
  · rw [KeepsAt, ended] at keeps
    exact keeps
  · rw [KeepsAt, ended] at keeps
    obtain rfl : next = world := keeps
    exact further value

theorem KeepsAt.failsIdle (keeps : KeepsAt world action) : FailsIdleAt world action := by
  intro error next failed
  rw [KeepsAt, failed] at keeps
  exact keeps

theorem KeepsAt.bind_failsIdle (keeps : KeepsAt world action)
    (further : ∀ value, FailsIdleAt world (rest value)) : FailsIdleAt world (action >>= rest) := by
  intro error next failed
  rcases ended : action world with ⟨cause | value, middle⟩
  · rw [Action.bind_of_error ended] at failed
    cases failed
    exact keeps.failsIdle _ _ ended
  · rw [KeepsAt, ended] at keeps
    obtain rfl : middle = world := keeps
    rw [Action.bind_of_ok ended] at failed
    exact further value error next failed

theorem FailsIdleAt.map (idle : FailsIdleAt world action) (f : α → β) :
    FailsIdleAt world (f <$> action) := by
  intro error next failed
  rw [Action.map_apply] at failed
  rcases ended : action world with ⟨cause | value, middle⟩
  · rw [ended] at failed
    cases failed
    exact idle _ _ ended
  · rw [ended] at failed
    cases failed

theorem keepsAt_pure (value : α) : KeepsAt world (pure value : StoreAction Database α) := rfl

theorem keepsAt_written (codec : Codec γ) (value : γ) : KeepsAt world (written codec value) := rfl

theorem keepsAt_readable (codec : Codec γ) (text : String) : KeepsAt world (readable codec text) := by
  unfold readable
  split <;> rfl

end

section

variable {κ ν : Type} (table : String) (keys : Codec κ) (values : Codec ν)

/-- Nothing can be asked outside a transaction. -/
theorem answer_unopened {db : Database} {tx : Nat} (unopened : db.opened.get? tx = none)
    (request : Request κ ν) : FailsAt db ((store table keys values).answer tx request) := by
  have selects (text : String) : FailsAt db (select table tx text) := ⟨_, select_unopened unopened⟩
  have finds (key : κ) : FailsAt db (find table keys values tx key) :=
    failsAt_written fun text => (selects text).bind
  cases request with
  | get key => exact (finds key).bind.map _
  | find key => exact (finds key).map _
  | add key value =>
    refine FailsAt.map (failsAt_written fun _ => failsAt_written fun _ => ?_) _
    exact ⟨_, modify_unopened unopened⟩
  | remove key => exact FailsAt.map (failsAt_written fun text => (selects text).bind) _
  | getOrAdd key build => exact (finds key).bind.map _
  | addOrUpdate key first update => exact (finds key).bind.map _

/-- Every row of a table reads back. -/
def Legible (contents : Contents) : Prop :=
  ∀ row text, textAt? contents (foldName table, row) = some text → values.decode? text ≠ none

section

variable {base next : Database} {tx : Nat} {contents : Contents} {changed : Bool}

theorem keepsAt_select (text : String) :
    KeepsAt (base.writing tx contents changed) (select table tx text) := by
  rw [KeepsAt]
  cases present : contents.get? (foldName table) with
  | none => rw [select_missing opened_writing present]
  | some rows => rw [select_writing present]

theorem keepsAt_find (key : κ) :
    KeepsAt (base.writing tx contents changed) (find table keys values tx key) := by
  refine (keepsAt_written keys key).bind fun text => (keepsAt_select table text).bind fun row => ?_
  cases row with
  | none => exact keepsAt_pure none
  | some text => exact (keepsAt_readable values text).bind fun _ => keepsAt_pure _

theorem failsIdleAt_modify (change : Rows → α × Option Rows) :
    FailsIdleAt (base.writing tx contents changed) (modify table tx change) := by
  intro error next failed
  cases present : contents.get? (foldName table) with
  | none =>
    rw [modify_missing opened_writing present] at failed
    cases failed
    rfl
  | some rows =>
    rw [modify_writing present] at failed
    cases failed

theorem failsIdleAt_remove (legible : Legible table values contents) (key : κ) :
    FailsIdleAt (base.writing tx contents changed) (remove table keys values tx key) := by
  refine (keepsAt_written keys key).bind_failsIdle fun text => ?_
  cases present : contents.get? (foldName table) with
  | none =>
    have missing : FailsAt (base.writing tx contents changed) (select table tx text) :=
      ⟨_, select_missing opened_writing present⟩
    exact missing.bind.failsIdle
  | some rows =>
    intro error next failed
    rw [Action.bind_of_ok (select_writing present)] at failed
    cases held : rows.get? text with
    | none =>
      rw [held] at failed
      cases failed
    | some row =>
      have taken : rows.contains text = true := by rw [Table.contains_eq_isSome, held]; rfl
      have here : textAt? contents (foldName table, text) = some row := by simp [textAt?, present, held]
      obtain ⟨value, reads⟩ := Option.ne_none_iff_exists'.mp (legible text row here)
      rw [held] at failed
      dsimp only at failed
      rw [Action.bind_of_ok (delete_writing present taken),
        Action.bind_of_ok (readable_of_decode? reads _)] at failed
      cases failed

/-- A request that fails has changed nothing, where the rows can be read. -/
theorem answer_failed (legible : Legible table values contents) (request : Request κ ν) :
    FailsIdleAt (base.writing tx contents changed) ((store table keys values).answer tx request) := by
  have finds (key : κ) : KeepsAt (base.writing tx contents changed) (find table keys values tx key) :=
    keepsAt_find table keys values key
  cases request with
  | get key =>
    refine ((finds key).bind_failsIdle fun found => ?_).map _
    cases found <;> exact KeepsAt.failsIdle rfl
  | find key => exact (finds key).failsIdle.map _
  | add key value =>
    exact ((keepsAt_written keys key).bind_failsIdle fun _ =>
      (keepsAt_written values value).bind_failsIdle fun _ => failsIdleAt_modify table _).map _
  | remove key => exact (failsIdleAt_remove table keys values legible key).map _
  | getOrAdd key build =>
    refine ((finds key).bind_failsIdle fun found => ?_).map _
    cases found with
    | some value => exact KeepsAt.failsIdle rfl
    | none =>
      exact (keepsAt_written keys key).bind_failsIdle fun _ =>
        (keepsAt_written values _).bind_failsIdle fun _ => (failsIdleAt_modify table _).map fun _ => _
  | addOrUpdate key first update =>
    exact ((finds key).bind_failsIdle fun _ => (keepsAt_written keys key).bind_failsIdle fun _ =>
      (keepsAt_written values _).bind_failsIdle fun _ =>
        (failsIdleAt_modify table _).map fun _ => _).map _

end

end

end DocStore.Database
