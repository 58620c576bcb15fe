import DocStore.Database.Store
import DocStore.Proofs.Database.Codec
import Mathlib.Data.List.Nodup

namespace DocStore

/-- Rows stand for a map: the row of a key holds a text of its value, and every row is the row of a
key. -/
structure RowsShow {κ ν : Type} (keys : Codec κ) (values : Codec ν) (rows : Rows)
    (content : κ → Option ν) : Prop where
  found : ∀ key text, keys.encode key = .ok text →
    (rows.get? text).map values.decode? = (content key).map some
  only : ∀ text ∈ rows.keys, ∃ key, keys.encode key = .ok text ∧ keys.decode? text = some key

namespace RowsShow

variable {κ ν : Type} {keys : Codec κ} {values : Codec ν} {rows : Rows} {content : κ → Option ν}
  {key : κ} {text : String}

theorem empty : RowsShow keys values .empty fun _ => none where
  found _ _ _ := rfl
  only _ member := absurd member List.not_mem_nil

theorem get?_eq_none (shows : RowsShow keys values rows content) (named : keys.encode key = .ok text)
    (absent : content key = none) : rows.get? text = none := by
  have found := shows.found key text named
  rw [absent] at found
  simpa using found

theorem get?_eq_some (shows : RowsShow keys values rows content) (named : keys.encode key = .ok text)
    {value : ν} (present : content key = some value) :
    ∃ held, rows.get? text = some held ∧ values.decode? held = some value := by
  have found := shows.found key text named
  rw [present] at found
  exact Option.map_eq_some_iff.mp found

variable [DecidableEq κ]

omit [DecidableEq κ] in
/-- Keys that are read back have rows of their own. -/
theorem encode_injective (kept : ∀ key, keys.Keeps key) {other : κ}
    (named : keys.encode key = .ok text) (same : keys.encode other = .ok text) : other = key := by
  obtain ⟨first, written, reads⟩ := kept key
  obtain ⟨second, writtenOther, readsOther⟩ := kept other
  obtain rfl : first = text := Except.ok.inj (written.symm.trans named)
  obtain rfl : second = first := Except.ok.inj (writtenOther.symm.trans same)
  exact Option.some.inj (readsOther.symm.trans reads)

omit [DecidableEq κ] in
theorem encode_eq_iff (kept : ∀ key, keys.Keeps key) {other : κ} {otherText : String}
    (named : keys.encode key = .ok text) (namedOther : keys.encode other = .ok otherText) :
    otherText = text ↔ other = key := by
  constructor
  · rintro rfl
    exact encode_injective kept named namedOther
  · rintro rfl
    exact Except.ok.inj (namedOther.symm.trans named)

theorem put (shows : RowsShow keys values rows content) (kept : ∀ key, keys.Keeps key)
    (named : keys.encode key = .ok text) {held : String} {value : ν}
    (reads : values.decode? held = some value) :
    RowsShow keys values (rows.put text held) fun other =>
      if other = key then some value else content other where
  found := by
    intro other otherText namedOther
    simp only [Table.get?_put, encode_eq_iff kept named namedOther]
    split
    case isTrue => simp [reads]
    case isFalse => exact shows.found other otherText namedOther
  only := by
    intro otherText member
    rcases Table.mem_keys_put.mp member with rfl | before
    · obtain ⟨written, encoded, decoded⟩ := kept key
      obtain rfl : written = otherText := Except.ok.inj (encoded.symm.trans named)
      exact ⟨key, encoded, decoded⟩
    · exact shows.only otherText before

theorem erase (shows : RowsShow keys values rows content) (kept : ∀ key, keys.Keeps key)
    (named : keys.encode key = .ok text) :
    RowsShow keys values (rows.erase text) fun other =>
      if other = key then none else content other where
  found := by
    intro other otherText namedOther
    simp only [Table.get?_erase, encode_eq_iff kept named namedOther]
    split
    case isTrue => rfl
    case isFalse => exact shows.found other otherText namedOther
  only := fun otherText member => shows.only otherText (Table.mem_keys_erase.mp member).1

end RowsShow

namespace Database

/-- The value that some contents hold under a key of a table. -/
def storedIn? {κ ν : Type} (contents : Contents) (table : String) (keys : Codec κ) (values : Codec ν)
    (key : κ) : Option ν := do
  let rows ← contents.get? (foldName table)
  let text ← (keys.encode key).toOption
  values.decode? (← rows.get? text)

theorem storedIn?_eq {κ ν : Type} {contents : Contents} {table : String} {rows : Rows}
    {keys : Codec κ} {values : Codec ν} {content : κ → Option ν} {key : κ}
    (present : contents.get? (foldName table) = some rows)
    (shows : RowsShow keys values rows content) (kept : keys.Keeps key) :
    storedIn? contents table keys values key = content key := by
  obtain ⟨text, named, _⟩ := kept
  simp only [storedIn?, present, named, Except.toOption, Option.bind_eq_bind, Option.bind_some]
  cases here : content key with
  | none => rw [shows.get?_eq_none named here]; rfl
  | some value =>
    obtain ⟨held, found, reads⟩ := shows.get?_eq_some named here
    rw [found]
    exact reads

variable {db base : Database} {tx : Nat} {table key value text : String} {rows : Rows}
  {contents : Contents} {changed : Bool}

/-- No transaction is open and no table has a row. -/
structure Unused (db : Database) : Prop where
  opened : db.opened = .empty
  rows : ∀ table rows, db.committed.contents.get? table = some rows → rows = .empty

theorem unused_empty : empty.Unused where
  opened := rfl
  rows _ _ found := by cases found

theorem Unused.openTable (unused : db.Unused) {next : Database}
    (success : Database.openTable table db = (.ok (), next)) :
    next.Unused ∧ ∀ other, (next.committed.contents.get? other).isSome = true ↔
      (db.committed.contents.get? other).isSome = true ∨ other = foldName table := by
  unfold Database.openTable at success
  split at success
  case isTrue => cases success
  case isFalse =>
  split at success
  case isTrue => cases success
  case isFalse =>
  split at success
  case isTrue there =>
    cases success
    refine ⟨unused, fun other => ⟨.inl, ?_⟩⟩
    intro given
    rcases given with before | rfl
    · exact before
    · exact there
  case isFalse =>
  split at success
  case isTrue => cases success
  case isFalse =>
    cases success
    constructor
    · refine ⟨unused.opened, ?_⟩
      intro other rows found
      simp only [publish, Table.get?_put] at found
      split at found
      case isTrue => exact (Option.some.inj found).symm
      case isFalse => exact unused.rows other rows found
    · intro other
      simp only [publish, Table.get?_put]
      by_cases same : other = foldName table
      · simp [same]
      · simp [same]

/-- A lookup fixes what its transaction sees, and changes nothing else. -/
theorem select_open {state : OpenTransaction} (opened : db.opened.get? tx = some state)
    (present : (db.viewOf state).contents.get? (foldName table) = some rows) :
    select table tx key db =
      (.ok (rows.get? key),
        { db with opened := db.opened.put tx { state with view := some (db.viewOf state) } }) := by
  simp only [select, opened, present]

theorem select_missing {state : OpenTransaction} (opened : db.opened.get? tx = some state)
    (missing : (db.viewOf state).contents.get? (foldName table) = none) :
    select table tx key db = (.error (.ofDatabase (.execute (.missingTable table))), db) := by
  simp only [select, opened, missing]
  rfl

theorem modify_missing {α : Type} {change : Rows → α × Option Rows} {state : OpenTransaction}
    (opened : db.opened.get? tx = some state)
    (missing : (db.viewOf state).contents.get? (foldName table) = none) :
    modify table tx change db = (.error (.ofDatabase (.execute (.missingTable table))), db) := by
  simp only [modify, opened, missing]
  rfl

/-- The database with a transaction that holds the write lock and sees some contents. -/
def writing (base : Database) (tx : Nat) (contents : Contents) (changed : Bool) : Database :=
  { base with
    opened := base.opened.put tx ⟨some ⟨contents, base.committed.version⟩, true, changed⟩ }

theorem opened_writing : (base.writing tx contents changed).opened.get? tx =
    some ⟨some ⟨contents, base.committed.version⟩, true, changed⟩ := by
  simp [writing]

theorem writing_put {later : Contents} {touched : Bool} :
    { base.writing tx contents changed with
      opened := (base.writing tx contents changed).opened.put tx
        ⟨some ⟨later, base.committed.version⟩, true, touched⟩ } = base.writing tx later touched := by
  simp only [writing, Table.put_put]

theorem select_writing (present : contents.get? (foldName table) = some rows) :
    select table tx key (base.writing tx contents changed) =
      (.ok (rows.get? key), base.writing tx contents changed) := by
  rw [select_open opened_writing present]
  exact congrArg (Prod.mk _) writing_put

theorem modify_writing {α : Type} {change : Rows → α × Option Rows}
    (present : contents.get? (foldName table) = some rows) :
    modify table tx change (base.writing tx contents changed) =
      (.ok (change rows).1,
        match (change rows).2 with
        | none => base.writing tx contents changed
        | some later => base.writing tx (contents.put (foldName table) later) true) := by
  simp only [modify, opened_writing, viewOf, Option.getD_some, present, Bool.not_true,
    Bool.false_and, Bool.false_eq_true, if_false]
  cases made : change rows with
  | mk answer after =>
    cases after with
    | none => exact congrArg (Prod.mk _) writing_put
    | some later => exact congrArg (Prod.mk _) writing_put

theorem insertNew_writing (present : contents.get? (foldName table) = some rows) :
    insertNew table tx key value (base.writing tx contents changed) =
      if rows.contains key then (.ok false, base.writing tx contents changed)
      else (.ok true, base.writing tx (contents.put (foldName table) (rows.put key value)) true) := by
  rw [insertNew, modify_writing present]
  split <;> rfl

theorem delete_writing (present : contents.get? (foldName table) = some rows)
    (taken : rows.contains key = true) :
    delete table tx key (base.writing tx contents changed) =
      (.ok (), base.writing tx (contents.put (foldName table) (rows.erase key)) true) := by
  rw [delete, modify_writing present, if_pos taken]

/-- Writing a value that stands in its row already is no change. -/
theorem upsert_writing (present : contents.get? (foldName table) = some rows) :
    ∃ touched, upsert table tx key value (base.writing tx contents changed) =
        (.ok (), base.writing tx (contents.put (foldName table) (rows.put key value)) touched) ∧
      (touched = false →
        changed = false ∧ contents.put (foldName table) (rows.put key value) = contents) := by
  rw [upsert, modify_writing present]
  split
  case isTrue same =>
    rw [Table.put_of_get? same, Table.put_of_get? present]
    exact ⟨changed, rfl, fun untouched => ⟨untouched, rfl⟩⟩
  case isFalse => exact ⟨true, rfl, fun untouched => by cases untouched⟩

/-- Ending a transaction by a commit makes what it saw the committed state. -/
theorem commit_writing (fresh : tx ∉ base.opened.keys) :
    commit tx (base.writing tx contents changed) =
      (.ok (), if changed then
        { base with committed := ⟨contents, base.committed.version + 1⟩ } else base) := by
  cases changed <;>
    simp [commit, writing, Table.erase_put fresh]

theorem abort_writing (fresh : tx ∉ base.opened.keys) :
    abort tx (base.writing tx contents changed) = (.ok (), base) := by
  simp [abort, writing, Table.erase_put fresh]

theorem release_writing (fresh : tx ∉ base.opened.keys) (contents : Contents) (changed : Bool) :
    release tx (base.writing tx contents changed) = base := by
  simp [release, writing, Table.erase_put fresh]

theorem isLocked_iff : db.isLocked = true ↔
    ∃ tx state, db.opened.get? tx = some state ∧ state.writing = true := by
  simp only [isLocked, List.any_eq_true, Table.mem_values]
  constructor
  · intro given
    obtain ⟨state, ⟨tx, found⟩, writes⟩ := given
    exact ⟨tx, state, found, writes⟩
  · intro given
    obtain ⟨tx, state, found, writes⟩ := given
    exact ⟨state, ⟨tx, found⟩, writes⟩

theorem begin_unlocked (free : db.isLocked = false) :
    begin db = (.ok db.next,
      { db with next := db.next + 1 }.writing db.next db.committed.contents false) := by
  rw [begin, if_neg (by simp [free])]
  rfl

theorem begin_locked (locked : db.isLocked = true) :
    begin db = (.error (.ofDatabase (.execute .locked)), db) := by
  rw [begin, if_pos locked]
  rfl

theorem commit_unopened (unopened : db.opened.get? tx = none) :
    commit tx db = (.error (.transactionClosed tx), db) := by
  simp only [commit, unopened]

theorem abort_unopened (unopened : db.opened.get? tx = none) :
    abort tx db = (.error (.transactionClosed tx), db) := by
  simp only [abort, unopened]

theorem select_unopened (unopened : db.opened.get? tx = none) :
    select table tx key db = (.error (.transactionClosed tx), db) := by
  simp only [select, unopened]

theorem modify_unopened {α : Type} {change : Rows → α × Option Rows}
    (unopened : db.opened.get? tx = none) :
    modify table tx change db = (.error (.transactionClosed tx), db) := by
  simp only [modify, unopened]

/-- The database with a transaction that has changed nothing and does not hold the write lock. -/
def reading (base : Database) (tx : Nat) (view : Option Snapshot) : Database :=
  { base with opened := base.opened.put tx ⟨view, false, false⟩ }

/-- A lookup of a transaction that sees the committed state, or has seen nothing yet, fixes that
state. -/
theorem select_reading {view : Option Snapshot} (sees : view.getD base.committed = base.committed)
    (present : base.committed.contents.get? (foldName table) = some rows) :
    select table tx key (base.reading tx view) =
      (.ok (rows.get? key), base.reading tx (some base.committed)) := by
  have opened : (base.reading tx view).opened.get? tx = some ⟨view, false, false⟩ := by
    simp [reading]
  have same : (base.reading tx view).viewOf ⟨view, false, false⟩ = base.committed := sees
  rw [select_open opened (by rw [same]; exact present), same]
  simp only [reading, Table.put_put]

/-- A transaction that has changed nothing leaves no trace. -/
theorem commit_reading {view : Option Snapshot} (fresh : tx ∉ base.opened.keys) :
    commit tx (base.reading tx view) = (.ok (), base) := by
  simp only [commit, reading, Table.get?_put, if_true, Table.erase_put fresh]

theorem release_reading (fresh : tx ∉ base.opened.keys) (view : Option Snapshot) :
    release tx (base.reading tx view) = base := by
  simp [release, reading, Table.erase_put fresh]

/-- A read transaction of its own uses up a number and leaves everything else as it is, whether or not
what is done in it succeeds. -/
theorem within_of_reading {ε α : Type} {wrap : StoreError → ε} {body : Nat → Action ε Database α}
    {outcome : Except ε α} {view : Option Snapshot}
    (bounded : ∀ tx ∈ base.opened.keys, tx < base.next)
    (ended : body base.next ({ base with next := base.next + 1 }.reading base.next none) =
      (outcome, { base with next := base.next + 1 }.reading base.next view)) :
    transactions.within wrap beginRead body base =
      (outcome, { base with next := base.next + 1 }) := by
  have fresh : base.next ∉ { base with next := base.next + 1 }.opened.keys := fun present =>
    Nat.lt_irrefl _ (bounded base.next present)
  cases outcome with
  | ok value => exact Transactions.within_of_ok rfl ended (commit_reading fresh)
  | error error =>
    exact (Transactions.within_of_error rfl ended).trans
      (congrArg (Prod.mk _) (release_reading fresh view))

section

variable {κ ν : Type} {keys : Codec κ} {values : Codec ν} {content : κ → Option ν} {member : κ}
  {held : ν}

theorem written_of_encode {α : Type} {codec : Codec α} {value : α} {text : String}
    (encoded : codec.encode value = .ok text) (db : Database) :
    written codec value db = (.ok text, db) := by
  rw [written, encoded]
  rfl

theorem readable_of_decode? {α : Type} {codec : Codec α} {value : α} {text : String}
    (decoded : codec.decode? text = some value) (db : Database) :
    readable codec text db = (.ok value, db) := by
  rw [readable, decoded]
  rfl

theorem find_of_select {next : Database} (named : keys.encode member = .ok text)
    (shows : RowsShow keys values rows content)
    (selected : select table tx text db = (.ok (rows.get? text), next)) :
    find table keys values tx member db = (.ok (content member), next) := by
  rw [find, Action.bind_of_ok (written_of_encode named db), Action.bind_of_ok selected]
  cases here : content member with
  | none =>
    rw [shows.get?_eq_none named here]
    rfl
  | some value =>
    obtain ⟨held, found, reads⟩ := shows.get?_eq_some named here
    rw [found]
    exact Action.bind_of_ok (readable_of_decode? reads next)

theorem get_of_find_some {next : Database}
    (found : find table keys values tx member db = (.ok (some held), next)) :
    get table keys values tx member db = (.ok held, next) := Action.bind_of_ok found

theorem get_of_find_none {next : Database}
    (absent : find table keys values tx member db = (.ok none, next)) :
    get table keys values tx member db = (.error .keyNotFound, next) := Action.bind_of_ok absent

theorem getOrAdd_of_find_some {next : Database} (build : κ → ν)
    (found : find table keys values tx member db = (.ok (some held), next)) :
    getOrAdd table keys values tx member build db = (.ok held, next) := Action.bind_of_ok found

theorem insertNew_writing_free (present : contents.get? (foldName table) = some rows)
    (shows : RowsShow keys values rows content) (named : keys.encode member = .ok text)
    (free : content member = none) :
    insertNew table tx text value (base.writing tx contents changed) =
      (.ok true, base.writing tx (contents.put (foldName table) (rows.put text value)) true) := by
  have absent : ¬ rows.contains text = true := by
    rw [Table.contains_eq_isSome, shows.get?_eq_none named free]
    simp
  rw [insertNew_writing present, if_neg absent]

theorem getOrAdd_writing_free (present : contents.get? (foldName table) = some rows)
    (shows : RowsShow keys values rows content) (named : keys.encode member = .ok text)
    (build : κ → ν) {writtenText : String}
    (encoded : values.encode (build member) = .ok writtenText) (free : content member = none) :
    getOrAdd table keys values tx member build (base.writing tx contents changed) =
      (.ok (build member),
        base.writing tx (contents.put (foldName table) (rows.put text writtenText)) true) := by
  have missing : find table keys values tx member (base.writing tx contents changed) =
      (.ok none, base.writing tx contents changed) := by
    rw [find_of_select named shows (select_writing present), free]
  refine (Action.bind_of_ok missing).trans ?_
  refine (Action.bind_of_ok (written_of_encode named _)).trans ?_
  refine (Action.bind_of_ok (written_of_encode encoded _)).trans ?_
  exact Action.bind_of_ok (insertNew_writing_free present shows named free)

theorem add_writing_taken (present : contents.get? (foldName table) = some rows)
    (shows : RowsShow keys values rows content) (named : keys.encode member = .ok text)
    {writtenText : String} (encoded : values.encode held = .ok writtenText) {stored : ν}
    (taken : content member = some stored) :
    add table keys values tx member held (base.writing tx contents changed) =
      (.ok false, base.writing tx contents changed) := by
  obtain ⟨row, found, _⟩ := shows.get?_eq_some named taken
  have here : rows.contains text = true := by rw [Table.contains_eq_isSome, found]; rfl
  rw [add, Action.bind_of_ok (written_of_encode named _),
    Action.bind_of_ok (written_of_encode encoded _), insertNew_writing present, if_pos here]

theorem add_writing_free (present : contents.get? (foldName table) = some rows)
    (shows : RowsShow keys values rows content) (named : keys.encode member = .ok text)
    {writtenText : String} (encoded : values.encode held = .ok writtenText)
    (free : content member = none) :
    add table keys values tx member held (base.writing tx contents changed) =
      (.ok true,
        base.writing tx (contents.put (foldName table) (rows.put text writtenText)) true) := by
  rw [add, Action.bind_of_ok (written_of_encode named _),
    Action.bind_of_ok (written_of_encode encoded _), insertNew_writing_free present shows named free]

theorem remove_writing_absent (present : contents.get? (foldName table) = some rows)
    (shows : RowsShow keys values rows content) (named : keys.encode member = .ok text)
    (absent : content member = none) :
    remove table keys values tx member (base.writing tx contents changed) =
      (.ok none, base.writing tx contents changed) := by
  rw [remove, Action.bind_of_ok (written_of_encode named _),
    Action.bind_of_ok (select_writing present), shows.get?_eq_none named absent]
  rfl

theorem remove_writing_found (present : contents.get? (foldName table) = some rows)
    (shows : RowsShow keys values rows content) (named : keys.encode member = .ok text)
    (stored : content member = some held) :
    remove table keys values tx member (base.writing tx contents changed) =
      (.ok (some held), base.writing tx (contents.put (foldName table) (rows.erase text)) true) := by
  obtain ⟨row, found, reads⟩ := shows.get?_eq_some named stored
  have taken : rows.contains text = true := by rw [Table.contains_eq_isSome, found]; rfl
  rw [remove, Action.bind_of_ok (written_of_encode named _),
    Action.bind_of_ok (select_writing present), found]
  refine (Action.bind_of_ok (delete_writing present taken)).trans ?_
  exact Action.bind_of_ok (readable_of_decode? reads _)

theorem addOrUpdate_writing (present : contents.get? (foldName table) = some rows)
    (shows : RowsShow keys values rows content) (named : keys.encode member = .ok text)
    {first next : ν} (update : κ → ν → ν)
    (updated : (content member).elim first (update member) = next)
    {writtenText : String} (encoded : values.encode next = .ok writtenText) :
    ∃ touched, addOrUpdate table keys values tx member first update
          (base.writing tx contents changed) =
        (.ok next,
          base.writing tx (contents.put (foldName table) (rows.put text writtenText)) touched) ∧
      (touched = false → changed = false ∧
        contents.put (foldName table) (rows.put text writtenText) = contents) := by
  obtain ⟨touched, written, untouched⟩ := upsert_writing present
  refine ⟨touched, ?_, untouched⟩
  rw [addOrUpdate, Action.bind_of_ok (find_of_select named shows (select_writing present))]
  cases here : content member with
  | none =>
    obtain rfl : first = next := by simpa [here] using updated
    refine (Action.bind_of_ok (written_of_encode named _)).trans ?_
    refine (Action.bind_of_ok (written_of_encode encoded _)).trans ?_
    exact Action.bind_of_ok written
  | some current =>
    obtain rfl : update member current = next := by simpa [here] using updated
    refine (Action.bind_of_ok (written_of_encode named _)).trans ?_
    refine (Action.bind_of_ok (written_of_encode encoded _)).trans ?_
    exact Action.bind_of_ok written

end

section

variable {κ ν : Type} {keys : Codec κ} {values : Codec ν} {content : κ → Option ν}

private theorem readable_pairs {rows : List (String × String)}
    (shown : ∀ row ∈ rows, ∃ key value, keys.encode key = .ok row.1 ∧
      keys.decode? row.1 = some key ∧ values.decode? row.2 = some value ∧ content key = some value)
    (db : Database) :
    ∃ pairs : List (κ × ν),
      (rows.map Prod.fst).mapM (readable keys) db = (.ok (pairs.map Prod.fst), db) ∧
      (rows.map Prod.snd).mapM (readable values) db = (.ok (pairs.map Prod.snd), db) ∧
      (pairs.map Prod.fst).map keys.encode = (rows.map Prod.fst).map .ok ∧
      ∀ pair ∈ pairs, content pair.1 = some pair.2 := by
  induction rows with
  | nil => exact ⟨[], rfl, rfl, rfl, by simp⟩
  | cons row rest ih =>
    obtain ⟨key, value, encoded, decoded, reads, stored⟩ := shown row (by simp)
    obtain ⟨pairs, allKeys, allValues, texts, exact⟩ := ih fun other member =>
      shown other (by simp [member])
    refine ⟨(key, value) :: pairs, ?_, ?_, by simp [encoded, texts], ?_⟩
    · rw [List.map_cons, List.mapM_cons, Action.bind_of_ok (readable_of_decode? decoded db),
        Action.bind_of_ok allKeys]
      rfl
    · rw [List.map_cons, List.mapM_cons, Action.bind_of_ok (readable_of_decode? reads db),
        Action.bind_of_ok allValues]
      rfl
    · intro pair member
      rcases List.mem_cons.mp member with rfl | later
      · exact stored
      · exact exact pair later

/-- The keys and the values of a table are those of the map its rows stand for, each key once. -/
theorem pairs_of_rows {db : Database}
    (present : db.committed.contents.get? (foldName table) = some rows)
    (shows : RowsShow keys values rows content) (kept : ∀ key, keys.Keeps key) :
    ∃ pairs : List (κ × ν),
      (store table keys values).keys db = (.ok (pairs.map Prod.fst), db) ∧
      (store table keys values).values db = (.ok (pairs.map Prod.snd), db) ∧
      (pairs.map Prod.fst).Nodup ∧ ∀ key value, (key, value) ∈ pairs ↔ content key = some value := by
  have shown : ∀ row ∈ rows.rows, ∃ key value, keys.encode key = .ok row.1 ∧
      keys.decode? row.1 = some key ∧ values.decode? row.2 = some value ∧
      content key = some value := by
    rintro ⟨text, held⟩ member
    have row : rows.get? text = some held := Table.get?_eq_some_iff.mpr member
    obtain ⟨key, encoded, decoded⟩ := shows.only text (Table.mem_keys_of_get? row)
    have found := shows.found key text encoded
    rw [row] at found
    obtain ⟨value, stored, reads⟩ := Option.map_eq_some_iff.mp found.symm
    exact ⟨key, value, encoded, decoded, reads.symm, stored⟩
  obtain ⟨pairs, allKeys, allValues, texts, exact⟩ := readable_pairs shown db
  have listed : committedRows table db = (.ok rows, db) := by
    rw [committedRows, present]
  refine ⟨pairs, (Action.bind_of_ok listed).trans allKeys,
    (Action.bind_of_ok listed).trans allValues, ?_, ?_⟩
  · have distinct : (rows.keys.map (Except.ok : String → Except String String)).Nodup :=
      List.Nodup.map (fun _ _ same => Except.ok.inj same) rows.distinct
    rw [Table.keys, ← texts] at distinct
    exact distinct.of_map _
  · intro key value
    refine ⟨exact (key, value), ?_⟩
    intro stored
    obtain ⟨text, encoded, _⟩ := kept key
    obtain ⟨held, row, _⟩ := shows.get?_eq_some encoded stored
    have written : (Except.ok text : Except String String) ∈
        (pairs.map Prod.fst).map keys.encode := by
      rw [texts]
      exact List.mem_map_of_mem (Table.mem_keys_of_get? row)
    obtain ⟨other, member, same⟩ := List.mem_map.mp written
    obtain rfl := RowsShow.encode_injective kept encoded same
    obtain ⟨pair, here, rfl⟩ := List.mem_map.mp member
    obtain rfl : pair.2 = value := Option.some.inj ((exact pair here).symm.trans stored)
    exact here

theorem keys_of_rows {db : Database} (present : db.committed.contents.get? (foldName table) = some rows)
    (shows : RowsShow keys values rows content) (kept : ∀ key, keys.Keeps key) :
    ∃ found, (store table keys values).keys db = (.ok found, db) ∧ found.Nodup ∧
      ∀ key, key ∈ found ↔ content key ≠ none := by
  obtain ⟨pairs, success, _, distinct, exact⟩ := pairs_of_rows present shows kept
  refine ⟨pairs.map Prod.fst, success, distinct, ?_⟩
  intro key
  rw [Option.ne_none_iff_exists']
  simp only [← exact key, List.mem_map, Prod.exists, exists_and_right, exists_eq_right]

end

end Database

end DocStore
