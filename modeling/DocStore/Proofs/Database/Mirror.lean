import DocStore.Store.Memory
import DocStore.Proofs.Database.Confined
import DocStore.Proofs.Store.Request
import Mathlib.Data.List.Perm.Basic

namespace DocStore

namespace Memory

variable {κ ν : Type} [DecidableEq κ] {memory : Table κ ν} {key : κ} {value : ν}

/-- A map as a store of its own. -/
abbrev table : LeafStore (Table κ ν) Unit κ ν := store Part.whole

theorem table_get_of_some (found : memory.get? key = some value) :
    table.get () key memory = (.ok value, memory) := by
  simp [store, Part.whole, found]

theorem table_get_of_none (absent : memory.get? key = none) :
    table.get () key memory = (.error .keyNotFound, memory) := by
  simp [store, Part.whole, absent]

theorem table_add_of_some {held : ν} (found : memory.get? key = some held) :
    table.add () key value memory = (.ok false, memory) := by
  simp [store, Part.whole, Table.contains_eq_isSome, found]

theorem table_add_of_none (absent : memory.get? key = none) :
    table.add () key value memory = (.ok true, memory.put key value) := by
  simp [store, Part.whole, Table.contains_eq_isSome, absent]

theorem table_remove_of_some (found : memory.get? key = some value) :
    table.remove () key memory = (.ok (some value), memory.erase key) := by
  simp [store, Part.whole, found]

theorem table_remove_of_none (absent : memory.get? key = none) :
    table.remove () key memory = (.ok none, memory) := by
  simp [store, Part.whole, absent, Table.erase_of_absent (Table.get?_eq_none_iff.mp absent)]

theorem table_getOrAdd_of_some (build : κ → ν) (found : memory.get? key = some value) :
    table.getOrAdd () key build memory = (.ok value, memory) := by
  simp [store, Part.whole, found]

theorem table_getOrAdd_of_none (build : κ → ν) (absent : memory.get? key = none) :
    table.getOrAdd () key build memory = (.ok (build key), memory.put key (build key)) := by
  simp [store, Part.whole, absent]

theorem table_addOrUpdate (key : κ) (first : ν) (update : κ → ν → ν) (memory : Table κ ν) :
    table.addOrUpdate () key first update memory =
      (.ok ((memory.get? key).elim first (update key)),
        memory.put key ((memory.get? key).elim first (update key))) := by
  cases found : memory.get? key <;> simp [store, Part.whole, found]

end Memory

namespace Database

variable {κ ν : Type} [DecidableEq κ] {table : String} {keys : Codec κ} {values : Codec ν} {tx : Nat}
  {db : Database} {memory : Table κ ν} {contents : Contents} {changed : Bool} {rows : Rows} {key : κ}
  {value : ν} {text held : String}

/-- A transaction is open that holds the write lock, and sees in the rows of a table what a map in
memory holds. -/
def Mirrors (table : String) (keys : Codec κ) (values : Codec ν) (tx : Nat) (db : Database)
    (memory : Table κ ν) : Prop :=
  ∃ contents changed rows,
    db.opened.get? tx = some ⟨some ⟨contents, db.committed.version⟩, true, changed⟩ ∧
      (changed = false → contents = db.committed.contents) ∧
      contents.get? (foldName table) = some rows ∧ RowsShow keys values rows memory.get?

/-- A transaction that takes the write lock on a table mirrors the map its rows stand for. -/
theorem begin_mirrors (free : db.isLocked = false)
    (present : db.committed.contents.get? (foldName table) = some rows)
    (shows : RowsShow keys values rows memory.get?) :
    ∃ next, begin db = (.ok db.next, next) ∧ Mirrors table keys values db.next next memory :=
  ⟨_, begin_unlocked free, db.committed.contents, false, rows, opened_writing, fun _ => rfl, present,
    shows⟩

private theorem mirrors_put (shows : RowsShow keys values rows memory.get?)
    (kept : ∀ key, keys.Keeps key) (named : keys.encode key = .ok text)
    (reads : values.decode? held = some value)
    (untouched : changed = false →
      contents.put (foldName table) (rows.put text held) = db.committed.contents) :
    Mirrors table keys values tx
      (db.writing tx (contents.put (foldName table) (rows.put text held)) changed)
      (memory.put key value) := by
  refine ⟨_, changed, rows.put text held, opened_writing, untouched, by simp, ?_⟩
  have later := shows.put kept named reads
  rw [← funext fun other => @Table.get?_put _ _ _ memory key other value] at later
  exact later

private theorem mirrors_erase (shows : RowsShow keys values rows memory.get?)
    (kept : ∀ key, keys.Keeps key) (named : keys.encode key = .ok text) :
    Mirrors table keys values tx
      (db.writing tx (contents.put (foldName table) (rows.erase text)) true) (memory.erase key) := by
  refine ⟨_, true, rows.erase text, opened_writing, nofun, by simp, ?_⟩
  have later := shows.erase kept named
  rw [← funext fun other => @Table.get?_erase _ _ _ memory key other] at later
  exact later

private def Alike {α : Type} (table : String) (keys : Codec κ) (values : Codec ν) (tx : Nat)
    (db : Database) (memory : Table κ ν) (real : StoreAction Database α)
    (model : StoreAction (Table κ ν) α) : Prop :=
  ∃ outcome next later, real db = (outcome, next) ∧ model memory = (outcome, later) ∧
    Mirrors table keys values tx next later

private theorem Alike.map {α : Type} {real : StoreAction Database α}
    {model : StoreAction (Table κ ν) α} (f : α → Reply ν)
    (alike : Alike table keys values tx db memory real model) :
    Alike table keys values tx db memory (f <$> real) (f <$> model) := by
  obtain ⟨outcome, next, later, first, second, mirrors⟩ := alike
  refine ⟨outcome.map f, next, later, ?_, ?_, mirrors⟩
  · rw [Action.map_apply, first]
  · rw [Action.map_apply, second]

namespace Mirrors

private theorem exists_writing (mirrors : Mirrors table keys values tx db memory) :
    ∃ (base : Database) (contents : Contents) (changed : Bool) (rows : Rows),
      db = base.writing tx contents changed ∧
      (changed = false → contents = base.committed.contents) ∧
      contents.get? (foldName table) = some rows ∧ RowsShow keys values rows memory.get? := by
  obtain ⟨contents, changed, rows, opened, untouched, present, shows⟩ := mirrors
  exact ⟨db, contents, changed, rows, (writing_of_opened opened).symm, untouched, present, shows⟩

theorem find_eq (mirrors : Mirrors table keys values tx db memory) (kept : keys.Keeps key) :
    Database.find table keys values tx key db = (.ok (memory.get? key), db) := by
  obtain ⟨base, contents, changed, rows, rfl, _, present, shows⟩ := mirrors.exists_writing
  obtain ⟨text, named, _⟩ := kept
  exact find_of_select named shows (select_writing present)

section

variable (mirrors : Mirrors table keys values tx db memory)

include mirrors

private theorem get (kept : keys.Keeps key) :
    Alike table keys values tx db memory (Database.get table keys values tx key)
      (Memory.table.get () key) := by
  have found := mirrors.find_eq kept
  cases here : memory.get? key with
  | none =>
    rw [here] at found
    exact ⟨_, _, _, get_of_find_none found, Memory.table_get_of_none here, mirrors⟩
  | some value =>
    rw [here] at found
    exact ⟨_, _, _, get_of_find_some found, Memory.table_get_of_some here, mirrors⟩

private theorem add (kept : ∀ key, keys.Keeps key) (key : κ)
    (writable : ∃ text, values.encode value = .ok text)
    (reads : memory.get? key = none → values.Keeps value) :
    Alike table keys values tx db memory (Database.add table keys values tx key value)
      (Memory.table.add () key value) := by
  obtain ⟨base, contents, changed, rows, rfl, _, present, shows⟩ := mirrors.exists_writing
  obtain ⟨text, named, _⟩ := kept key
  cases here : memory.get? key with
  | some held =>
    obtain ⟨written, encoded⟩ := writable
    exact ⟨_, _, _, add_writing_taken present shows named encoded here,
      Memory.table_add_of_some here, mirrors⟩
  | none =>
    obtain ⟨written, encoded, decoded⟩ := reads here
    exact ⟨_, _, _, add_writing_free present shows named encoded here,
      Memory.table_add_of_none here, mirrors_put shows kept named decoded (by simp)⟩

private theorem remove (kept : ∀ key, keys.Keeps key) (key : κ) :
    Alike table keys values tx db memory (Database.remove table keys values tx key)
      (Memory.table.remove () key) := by
  obtain ⟨base, contents, changed, rows, rfl, _, present, shows⟩ := mirrors.exists_writing
  obtain ⟨text, named, _⟩ := kept key
  cases here : memory.get? key with
  | none =>
    exact ⟨_, _, _, remove_writing_absent present shows named here,
      Memory.table_remove_of_none here, mirrors⟩
  | some value =>
    exact ⟨_, _, _, remove_writing_found present shows named here,
      Memory.table_remove_of_some here, mirrors_erase shows kept named⟩

private theorem getOrAdd (kept : ∀ key, keys.Keeps key) (key : κ) (build : κ → ν)
    (reads : memory.get? key = none → values.Keeps (build key)) :
    Alike table keys values tx db memory (Database.getOrAdd table keys values tx key build)
      (Memory.table.getOrAdd () key build) := by
  cases here : memory.get? key with
  | some value =>
    have found := mirrors.find_eq (kept key)
    rw [here] at found
    exact ⟨_, _, _, getOrAdd_of_find_some build found, Memory.table_getOrAdd_of_some build here,
      mirrors⟩
  | none =>
    obtain ⟨base, contents, changed, rows, rfl, _, present, shows⟩ := mirrors.exists_writing
    obtain ⟨text, named, _⟩ := kept key
    obtain ⟨written, encoded, decoded⟩ := reads here
    exact ⟨_, _, _, getOrAdd_writing_free present shows named build encoded here,
      Memory.table_getOrAdd_of_none build here, mirrors_put shows kept named decoded (by simp)⟩

private theorem addOrUpdate (kept : ∀ key, keys.Keeps key) (key : κ) (first : ν)
    (update : κ → ν → ν) (reads : values.Keeps ((memory.get? key).elim first (update key))) :
    Alike table keys values tx db memory
      (Database.addOrUpdate table keys values tx key first update)
      (Memory.table.addOrUpdate () key first update) := by
  obtain ⟨base, contents, changed, rows, rfl, untouched, present, shows⟩ := mirrors.exists_writing
  obtain ⟨text, named, _⟩ := kept key
  obtain ⟨written, encoded, decoded⟩ := reads
  obtain ⟨touched, success, unchanged⟩ :=
    addOrUpdate_writing present shows named update rfl encoded
  refine ⟨_, _, _, success, Memory.table_addOrUpdate key first update memory,
    mirrors_put shows kept named decoded ?_⟩
  intro idle
  obtain ⟨before, equal⟩ := unchanged idle
  rw [equal, untouched before]

end

/-- One request. Only values that the map holds afterwards have to be read back. -/
theorem answer (mirrors : Mirrors table keys values tx db memory)
    (kept : ∀ key, keys.Keeps key) (writable : ∀ value, ∃ text, values.encode value = .ok text)
    (request : Request κ ν)
    (reads : ∀ key value, (Memory.table.answer () request memory).2.get? key = some value →
      values.Keeps value) :
    ∃ outcome next later, (store table keys values).answer tx request db = (outcome, next) ∧
      Memory.table.answer () request memory = (outcome, later) ∧
      Mirrors table keys values tx next later := by
  have stored (key : κ) {value : ν}
      (put : (Memory.table.answer () request memory).2 = memory.put key value) :
      values.Keeps value :=
    reads key value (by rw [put]; simp)
  cases request with
  | get key => exact (mirrors.get (kept key)).map .value
  | find key => exact Alike.map .found ⟨_, _, memory, mirrors.find_eq (kept key), rfl, mirrors⟩
  | add key value =>
    refine (mirrors.add kept key (writable value) fun absent => stored key ?_).map .added
    rw [LeafStore.answer, Action.map_apply, Memory.table_add_of_none absent]
  | remove key => exact (mirrors.remove kept key).map .found
  | getOrAdd key build =>
    refine (mirrors.getOrAdd kept key build fun absent => stored key ?_).map .value
    rw [LeafStore.answer, Action.map_apply, Memory.table_getOrAdd_of_none build absent]
  | addOrUpdate key first update =>
    refine (mirrors.addOrUpdate kept key first update (stored key ?_)).map .value
    rw [LeafStore.answer, Action.map_apply, Memory.table_addOrUpdate]

/-- Some requests in a row are answered alike, and afterwards the table still mirrors the map. -/
theorem answers (mirrors : Mirrors table keys values tx db memory)
    (kept : ∀ key, keys.Keeps key) (writable : ∀ value, ∃ text, values.encode value = .ok text)
    (requests : List (Request κ ν))
    (reads : ∀ earlier, earlier <+: requests → ∀ key value,
      (Memory.table.answers () earlier memory).2.get? key = some value → values.Keeps value) :
    ((store table keys values).answers tx requests db).1 =
        (Memory.table.answers () requests memory).1 ∧
      Mirrors table keys values tx ((store table keys values).answers tx requests db).2
        (Memory.table.answers () requests memory).2 := by
  induction requests generalizing db memory with
  | nil => exact ⟨rfl, mirrors⟩
  | cons request rest ih =>
    obtain ⟨outcome, next, later, real, model, same⟩ := mirrors.answer kept writable request
      (reads [request] (List.prefix_append [request] rest))
    have further := ih same fun earlier here key value found =>
      reads (request :: earlier) (List.prefix_cons_inj request |>.mpr here) key value
        (by rw [LeafStore.answers_cons model]; exact found)
    rw [LeafStore.answers_cons real, LeafStore.answers_cons model]
    exact ⟨congrArg (outcome :: ·) further.1, further.2⟩

/-- A missing key is the only reason for a get to fail, and a lookup then finds nothing. -/
theorem get_missing_iff (mirrors : Mirrors table keys values tx db memory)
    (kept : keys.Keeps key) :
    ((store table keys values).get tx key db).1 = .error .keyNotFound ↔
      ((store table keys values).find tx key db).1 = .ok none := by
  have found := mirrors.find_eq kept
  change (Database.get ..).1 = _ ↔ (Database.find ..).1 = _
  cases here : memory.get? key with
  | none =>
    rw [here] at found
    rw [get_of_find_none found, found]
    exact ⟨fun _ => rfl, fun _ => rfl⟩
  | some value =>
    rw [here] at found
    rw [get_of_find_some found, found]
    exact ⟨nofun, nofun⟩

/-- After a commit the table lists the keys and the values of the map. -/
theorem commit (mirrors : Mirrors table keys values tx db memory)
    (kept : ∀ key, keys.Keeps key) :
    ∃ after allKeys allValues, Database.commit tx db = (.ok (), after) ∧
      (store table keys values).keys after = (.ok allKeys, after) ∧
      (store table keys values).values after = (.ok allValues, after) ∧
      allKeys.Perm memory.keys ∧ allValues.Perm memory.values := by
  obtain ⟨contents, changed, rows, opened, untouched, present, shows⟩ := mirrors
  obtain ⟨after, committed, published⟩ : ∃ after, Database.commit tx db = (.ok (), after) ∧
      after.committed.contents = contents := by
    cases changed with
    | true =>
      refine ⟨⟨⟨contents, db.committed.version + 1⟩, db.opened.erase tx, db.next⟩, ?_, rfl⟩
      simp only [Database.commit, opened]
    | false =>
      refine ⟨{ db with opened := db.opened.erase tx }, ?_, (untouched rfl).symm⟩
      simp only [Database.commit, opened]
  rw [← published] at present
  obtain ⟨pairs, allKeys, allValues, distinct, exact⟩ := pairs_of_rows present shows kept
  have same : pairs.Perm memory.rows := by
    refine (List.perm_ext_iff_of_nodup distinct.of_map memory.distinct.of_map).mpr ?_
    rintro ⟨key, value⟩
    rw [exact key value, Table.get?_eq_some_iff]
  exact ⟨after, _, _, committed, allKeys, allValues, same.map Prod.fst, same.map Prod.snd⟩

end Mirrors

/-- The store of JSON values under texts that is kept in one table. -/
abbrev jsonStore (table : String) : LeafStore Database Nat String Json :=
  store table Codec.identifier Codec.json

section

variable {table : String} {tx : Nat} {db : Database} {memory : Table String Json}

/-- A table of JSON values seen through one write transaction, and a map in memory of the same
contents: any requests in a row are answered alike and leave the same contents after each of them, as
long as the values held decode from their texts, and after a commit the same keys and values are
listed. -/
theorem store_mirrors_memory (mirrors : Mirrors table Codec.identifier Codec.json tx db memory)
    (requests : List (Request String Json))
    (decodes : ∀ earlier, earlier <+: requests → ∀ key value,
      (Memory.table.answers () earlier memory).2.get? key = some value → Codec.json.Keeps value) :
    (∀ earlier, earlier <+: requests →
      ((jsonStore table).answers tx earlier db).1 =
          (Memory.table.answers () earlier memory).1 ∧
        Mirrors table Codec.identifier Codec.json tx
          ((jsonStore table).answers tx earlier db).2
          (Memory.table.answers () earlier memory).2 ∧
        ∀ key,
          ((jsonStore table).get tx key ((jsonStore table).answers tx earlier db).2).1 =
            .error .keyNotFound ↔
          ((jsonStore table).find tx key ((jsonStore table).answers tx earlier db).2).1 = .ok none) ∧
      ∃ after tableKeys tableValues mapKeys mapValues,
        Database.commit tx ((jsonStore table).answers tx requests db).2 = (.ok (), after) ∧
        (jsonStore table).keys after = (.ok tableKeys, after) ∧
        (jsonStore table).values after = (.ok tableValues, after) ∧
        (Memory.table.keys (Memory.table.answers () requests memory).2).1 = .ok mapKeys ∧
        (Memory.table.values (Memory.table.answers () requests memory).2).1 = .ok mapValues ∧
        tableKeys.Perm mapKeys ∧ tableValues.Perm mapValues := by
  have kept : ∀ key : String, Codec.identifier.Keeps key := Codec.identifier_keeps
  have follows (earlier : List (Request String Json)) (here : earlier <+: requests) :=
    mirrors.answers kept (fun value => ⟨value.compact, rfl⟩) earlier
      fun first before => decodes first (before.trans here)
  constructor
  · intro earlier here
    obtain ⟨alike, later⟩ := follows earlier here
    exact ⟨alike, later, fun key => later.get_missing_iff (kept key)⟩
  · obtain ⟨_, later⟩ := follows requests (List.prefix_refl requests)
    obtain ⟨after, tableKeys, tableValues, committed, allKeys, allValues, sameKeys, sameValues⟩ :=
      later.commit kept
    exact ⟨after, tableKeys, tableValues, _, _, committed, allKeys, allValues, rfl, rfl, sameKeys,
      sameValues⟩

/-- A database with one table without rows. -/
def blankTable : Database := ⟨⟨Table.empty.put (foldName "notes") .empty, 1⟩, .empty, 1⟩

theorem store_mirrors_memory_blank :
    ∃ next, begin blankTable = (.ok 1, next) ∧
      Mirrors "notes" Codec.identifier Codec.json 1 next (Table.empty : Table String Json) ∧
      (∀ earlier : List (Request String Json), earlier <+: [.add "a" (.string "x")] → ∀ key value,
        (Memory.table.answers () earlier Table.empty).2.get? key = some value →
          Codec.json.Keeps value) ∧
      ((jsonStore "notes").answers 1 [.add "a" (.string "x")] next).1 =
        (Memory.table.answers () [.add "a" (.string "x")] (Table.empty : Table String Json)).1 := by
  obtain ⟨next, begun, mirrors⟩ : ∃ next, begin blankTable = (.ok 1, next) ∧
      Mirrors "notes" Codec.identifier Codec.json 1 next (Table.empty : Table String Json) :=
    begin_mirrors rfl (by simp [blankTable]) RowsShow.empty
  have decodes : ∀ earlier : List (Request String Json), earlier <+: [.add "a" (.string "x")] →
      ∀ key value, (Memory.table.answers () earlier Table.empty).2.get? key = some value →
        Codec.json.Keeps value := by
    intro earlier here key value found
    rcases List.prefix_cons_iff.mp here with rfl | ⟨rest, rfl, none⟩
    · cases found
    · obtain rfl := List.prefix_nil.mp none
      have held : (Table.empty.put "a" (Json.string "x")).get? key = some value := found
      rw [Table.get?_put] at held
      split at held
      case isTrue =>
        cases held
        exact Codec.json_keeps trivial (by decide) trivial
      case isFalse => cases held
  obtain ⟨alike, _⟩ := store_mirrors_memory mirrors [.add "a" (.string "x")] decodes
  exact ⟨next, begun, mirrors, decodes, (alike _ (List.prefix_refl _)).1⟩

end

end Database

end DocStore
