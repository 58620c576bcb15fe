import DocStore.Collection.Stored
import DocStore.Proofs.Collection.Indexes
import DocStore.Proofs.Collection.Search
import DocStore.Proofs.Collection.Update
import DocStore.Proofs.Database.Tables

namespace DocStore

open Database (foldName)

theorem Database.foldName_toList (name : String) :
    (foldName name).toList = name.toList.map Char.toLower := by
  exact String.toList_map

variable {α ι : Type} [DecidableEq ι] [Identifier ι] [Record α ι]

namespace Collection

theorem indexTable_ne (name : String) (index : IndexName) :
    foldName (indexTable name index) ≠ foldName name := by
  intro same
  have lengths := congrArg (fun text => text.toList.length) same
  simp only [Database.foldName_toList, indexTable, String.toList_append, List.length_map,
    List.length_append] at lengths
  have separator : "_".toList.length = 1 := rfl
  omega

/-- Indexes share a table only if their names differ in nothing but the case of letters. -/
theorem foldName_of_indexTable {name : String} {index other : IndexName}
    (same : foldName (indexTable name index) = foldName (indexTable name other)) :
    foldName index.text = foldName other.text := by
  have texts := congrArg String.toList same
  simp only [Database.foldName_toList, indexTable, String.toList_append, List.map_append,
    List.append_cancel_left_eq] at texts
  apply String.toList_injective
  rw [Database.foldName_toList, Database.foldName_toList, texts]

/-- The tables of the collection called `name` stand for a catalog. -/
structure TablesShow (name : String) (fields : List (IndexedField α)) (contents : Contents)
    (catalog : Catalog α ι) : Prop where
  records : ∃ rows, contents.get? (foldName name) = some rows ∧
    RowsShow Codec.identifier Codec.record rows catalog.records
  entries : ∀ field ∈ fields, ∃ rows,
    contents.get? (foldName (indexTable name field.name)) = some rows ∧
      RowsShow Codec.indexValue Codec.idSet rows (catalog.entries field.name)

namespace TablesShow

variable {name : String} {fields : List (IndexedField α)} {contents : Contents}
  {catalog : Catalog α ι} {rows : Rows}

theorem setRecord (shows : TablesShow name fields contents catalog) {id : ι} {record : Option α}
    (changed : RowsShow Codec.identifier Codec.record rows (catalog.setRecord id record).records) :
    TablesShow name fields (contents.put (foldName name) rows) (catalog.setRecord id record) where
  records := ⟨rows, by simp, changed⟩
  entries := by
    intro field declared
    obtain ⟨entries, present, show_⟩ := shows.entries field declared
    exact ⟨entries, by simp [indexTable_ne, present], show_⟩

theorem setEntry (shows : TablesShow name fields contents catalog)
    (distinct : (fields.map fun field => foldName field.name.text).Nodup)
    {field : IndexedField α} (declared : field ∈ fields) {value : IndexValue} {set : IdSet ι}
    (changed : RowsShow Codec.indexValue Codec.idSet rows
      ((catalog.setEntry field.name value set).entries field.name)) :
    TablesShow name fields (contents.put (foldName (indexTable name field.name)) rows)
      (catalog.setEntry field.name value set) where
  records := by
    obtain ⟨records, present, shown⟩ := shows.records
    exact ⟨records, by simp [(indexTable_ne name field.name).symm, present], shown⟩
  entries := by
    intro other here
    by_cases same : foldName other.name.text = foldName field.name.text
    · obtain rfl : other = field := List.inj_on_of_nodup_map distinct here declared same
      exact ⟨rows, by simp, changed⟩
    · obtain ⟨entries, present, shown⟩ := shows.entries other here
      have apart : foldName (indexTable name other.name) ≠ foldName (indexTable name field.name) :=
        fun collide => same (foldName_of_indexTable collide)
      have differs : other.name ≠ field.name := fun equal => same (by rw [equal])
      refine ⟨entries, by simp [apart, present], ?_⟩
      simpa [Catalog.setEntry, differs] using shown

end TablesShow

/-- The collection that is opened under a name. -/
def stored (name : String) (fields : List (IndexedField α)) : Collection Database Nat α ι where
  transactions := Database.transactions
  records := recordStore name
  indexes := ⟨fields.map fun field => (field.name, indexStore name field.name)⟩
  fields
  lookups := .together

variable {name : String} {fields : List (IndexedField α)} {base : Database} {tx : Nat}

/-- A database with a transaction that holds the write lock and sees a catalog. If it has made no
changes it sees what is committed. -/
def WriterShows (name : String) (fields : List (IndexedField α)) (base : Database) (tx : Nat)
    (world : Database) (catalog : Catalog α ι) : Prop :=
  ∃ contents changed, world = base.writing tx contents changed ∧
    TablesShow name fields contents catalog ∧
    (changed = false → contents = base.committed.contents)

theorem index_stored {field : IndexedField α} (declared : field ∈ fields) :
    (stored name fields : Collection _ _ α ι).index field.name =
      .ok (indexStore name field.name) := by
  have found : (stored name fields : Collection _ _ α ι).indexes.get? field.name =
      some (indexStore name field.name) := by
    rw [stored, Indexes.get?_fields, if_pos (List.mem_map.mpr ⟨field, declared, rfl⟩)]
  rw [index, found]

theorem index_stored_eq_ok {index : IndexName} {store : LeafStore Database Nat IndexValue (IdSet ι)}
    (found : (stored name fields : Collection _ _ α ι).index index = .ok store) :
    index ∈ fields.map IndexedField.name ∧ store = indexStore name index := by
  by_cases declared : index ∈ fields.map IndexedField.name
  · obtain ⟨field, member, rfl⟩ := List.mem_map.mp declared
    rw [index_stored member] at found
    exact ⟨declared, (Except.ok.inj found).symm⟩
  · rw [Collection.index, stored, Indexes.get?_fields, if_neg declared] at found
    cases found

variable [LawfulIdentifier ι]

/-- A transaction with the write lock acts on its view as on a catalog. -/
theorem stored_writes (distinct : (fields.map fun field => foldName field.name.text).Nodup) :
    WritesCatalog (stored name fields) tx (fun record => Codec.record.Keeps record)
      (WriterShows name fields base tx : Database → Catalog α ι → Prop) where
  taken := by
    intro _ catalog record held given writable stored
    obtain ⟨contents, changed, rfl, shows, untouched⟩ := given
    obtain ⟨rows, present, shown⟩ := shows.records
    obtain ⟨text, encoded, _⟩ := writable
    obtain ⟨key, named, _⟩ := Codec.identifier_keeps (Record.id record)
    exact ⟨_, Database.add_writing_taken present shown named encoded stored,
      contents, changed, rfl, shows, untouched⟩
  free := by
    intro _ catalog record given writable free
    obtain ⟨contents, changed, rfl, shows, _⟩ := given
    obtain ⟨rows, present, shown⟩ := shows.records
    obtain ⟨text, encoded, reads⟩ := writable
    obtain ⟨key, named, _⟩ := Codec.identifier_keeps (Record.id record)
    exact ⟨_, Database.add_writing_free present shown named encoded free, _, true, rfl,
      shows.setRecord (shown.put Codec.identifier_keeps named reads), by simp⟩
  remove := by
    intro _ catalog given id
    obtain ⟨contents, changed, rfl, shows, untouched⟩ := given
    obtain ⟨rows, present, shown⟩ := shows.records
    obtain ⟨key, named, _⟩ := Codec.identifier_keeps id
    cases stored : catalog.records id with
    | none =>
      rw [Catalog.setRecord_of_none stored]
      exact ⟨_, Database.remove_writing_absent present shown named stored,
        contents, changed, rfl, shows, untouched⟩
    | some record =>
      exact ⟨_, Database.remove_writing_found present shown named stored, _, true, rfl,
        shows.setRecord (shown.erase Codec.identifier_keeps named), by simp⟩
  revise := by
    intro field declared
    refine ⟨_, index_stored declared, ?_⟩
    intro _ catalog given value first update
    obtain ⟨contents, changed, rfl, shows, untouched⟩ := given
    obtain ⟨rows, present, shown⟩ := shows.entries field declared
    obtain ⟨key, named, _⟩ := Codec.indexValue_keeps value
    obtain ⟨text, encoded, reads⟩ :=
      Codec.idSet_keeps (Catalog.revised first update (catalog.entries field.name value))
    have updated : (catalog.entries field.name value).elim first (fun set => update set) =
        Catalog.revised first update (catalog.entries field.name value) := by
      cases catalog.entries field.name value <;> rfl
    obtain ⟨touched, written, unchanged⟩ :=
      Database.addOrUpdate_writing present shown named (fun _ set => update set) updated encoded
    refine ⟨_, written, _, touched, rfl, ?_, ?_⟩
    · refine shows.setEntry distinct declared ?_
      simpa [Catalog.setEntry] using shown.put Codec.indexValue_keeps named reads
    · intro untouchedNow
      obtain ⟨before, same⟩ := unchanged untouchedNow
      rw [same, untouched before]

/-- A database that differs from `base` in the number of the next transaction at most, its committed
tables standing for a catalog. -/
def ReaderShows (name : String) (fields : List (IndexedField α)) (base world : Database)
    (catalog : Catalog α ι) : Prop :=
  ∃ later, base.next ≤ later ∧ world = { base with next := later } ∧
    TablesShow name fields base.committed.contents catalog

private theorem find_reading {catalog : Catalog α ι} (base : Database) (tx : Nat)
    {view : Option Snapshot} (sees : view.getD base.committed = base.committed)
    (shows : TablesShow name fields base.committed.contents catalog) (id : ι) :
    (recordStore name).find tx id (base.reading tx view) =
      (.ok (catalog.records id), base.reading tx (some base.committed)) := by
  obtain ⟨rows, present, shown⟩ := shows.records
  obtain ⟨key, named, _⟩ := Codec.identifier_keeps id
  exact Database.find_of_select named shown (Database.select_reading sees present)

/-- Queries read the committed tables. -/
theorem stored_reads (bounded : ∀ tx ∈ base.opened.keys, tx < base.next) :
    ReadsCatalog (stored name fields : Collection _ _ α ι) (ReaderShows name fields base) where
  indexed index := Indexes.isSome_get?_fields (indexStore name) fields index
  getById := by
    intro _ catalog given id
    obtain ⟨later, reached, rfl, shows⟩ := given
    have success := find_reading { base with next := later + 1 } later
      (show Option.getD none base.committed = base.committed from rfl) shows id
    refine ⟨_, Database.within_of_reading (fun tx member => (bounded tx member).trans_le reached)
      (Action.mapError_of_ok success), later + 1, Nat.le_succ_of_le reached, rfl, shows⟩
  search := by
    intro index declared _ catalog given value
    obtain ⟨later, reached, rfl, shows⟩ := given
    obtain ⟨field, member, rfl⟩ := List.mem_map.mp declared
    obtain ⟨rows, present, shown⟩ := shows.entries field member
    obtain ⟨key, named, _⟩ := Codec.indexValue_keeps value
    have looked : (indexStore name field.name).find later value
        ({ base with next := later + 1 }.reading later none) =
          (.ok (catalog.entries field.name value),
            { base with next := later + 1 }.reading later (some base.committed)) :=
      Database.find_of_select named shown (Database.select_reading rfl present)
    have opened : (stored name fields : Collection _ _ α ι).index field.name =
        .ok (indexStore name field.name) := index_stored member
    have finds : ∀ {world : Database},
        world = { base with next := later + 1 }.reading later (some base.committed) → ∀ id,
        ∃ next, (stored name fields).records.find later id world = (.ok (catalog.records id), next) ∧
          next = { base with next := later + 1 }.reading later (some base.committed) := by
      intro _ equal id
      subst equal
      exact ⟨_, find_reading { base with next := later + 1 } later rfl shows id, rfl⟩
    obtain ⟨_, fetched, rfl⟩ :=
      fetch_of_find finds ((catalog.entries field.name value).getD .empty).ids rfl
    refine ⟨{ base with next := later + 1 }, ?_, later + 1, Nat.le_succ_of_le reached, rfl, shows⟩
    rw [searchByIndex, opened, Action.bind_of_ok (Action.ofExcept_apply ..)]
    exact Database.within_of_reading (fun tx member => (bounded tx member).trans_le reached)
      ((Action.bind_of_ok (Action.mapError_of_ok looked)).trans fetched)

section

variable {db next : Database}

omit [LawfulIdentifier ι] in
theorem build_of_openStored {collection : Collection Database Nat α ι}
    (success : openStored name fields db = (.ok collection, next)) :
    ∃ factory middle, build Database.transactions .together (recordStore name) factory fields middle =
      (.ok collection, next) := by
  obtain ⟨_, middle, _, further⟩ := Action.bind_eq_ok success
  exact ⟨_, middle, Action.mapError_eq_ok further⟩

omit [LawfulIdentifier ι] in
/-- Whatever is in the database, a collection that could be opened is the one of its tables. -/
theorem openStored_eq_ok {collection : Collection Database Nat α ι}
    (success : openStored name fields db = (.ok collection, next)) :
    collection = stored name fields := by
  obtain ⟨_, middle, _, further⟩ := Action.bind_eq_ok success
  obtain ⟨indexes, final, extended, built⟩ := Action.bind_eq_ok (Action.mapError_eq_ok further)
  have stores := Indexes.extend_stores (indexStore name) ?_ extended
  · cases indexes
    cases built
    cases stores
    rfl
  · intro index before store after created
    obtain ⟨_, _, _, made⟩ := Action.bind_eq_ok created
    cases made
    rfl

omit [Record α ι] [LawfulIdentifier ι] in
private theorem extend_stored {opened indexes : Indexes Database Nat ι}
    (unused : db.Unused)
    (success : Indexes.extend
      (fun index => do
        (Database.openTable (indexTable name index)).mapError .ofDatabase
        pure (indexStore name index)) opened fields db = (.ok indexes, next)) :
    next.Unused ∧
      (∀ table, (db.committed.contents.get? table).isSome = true →
        (next.committed.contents.get? table).isSome = true) ∧
      ∀ field ∈ fields,
        (next.committed.contents.get? (foldName (indexTable name field.name))).isSome = true := by
  induction fields generalizing opened db with
  | nil =>
    cases success
    exact ⟨unused, fun _ there => there, by simp⟩
  | cons field rest ih =>
    rw [Indexes.extend] at success
    split at success
    case isTrue => cases success
    case isFalse =>
      obtain ⟨store, middle, created, further⟩ := Action.bind_eq_ok success
      obtain ⟨_, _, created, made⟩ := Action.bind_eq_ok (Action.mapError_eq_ok created)
      cases made
      obtain ⟨unusedMiddle, tables⟩ := unused.openTable (Action.mapError_eq_ok created)
      obtain ⟨unusedNext, kept, present⟩ := ih unusedMiddle further
      refine ⟨unusedNext, ?_, ?_⟩
      · exact fun table there => kept table ((tables table).mpr (.inl there))
      · intro other member
        rcases List.mem_cons.mp member with rfl | later
        · exact kept _ ((tables _).mpr (.inr rfl))
        · exact present other later

omit [LawfulIdentifier ι] in
/-- A collection that could be opened in an unused database is the one of its tables, and they are
empty. -/
theorem openStored_unused (unused : db.Unused) {collection : Collection Database Nat α ι}
    (success : openStored name fields db = (.ok collection, next)) :
    collection = stored name fields ∧ next.Unused ∧
      TablesShow name fields next.committed.contents (Catalog.empty : Catalog α ι) := by
  refine ⟨openStored_eq_ok success, ?_⟩
  obtain ⟨_, middle, created, further⟩ := Action.bind_eq_ok success
  obtain ⟨unusedMiddle, tables⟩ := unused.openTable (Action.mapError_eq_ok created)
  obtain ⟨indexes, final, extended, built⟩ := Action.bind_eq_ok (Action.mapError_eq_ok further)
  cases built
  obtain ⟨unusedNext, kept, present⟩ := extend_stored unusedMiddle extended
  have rows (table : String) (there : (next.committed.contents.get? table).isSome = true) :
      next.committed.contents.get? table = some .empty := by
    obtain ⟨rows, found⟩ := Option.isSome_iff_exists.mp there
    rw [found, unusedNext.rows table rows found]
  refine ⟨unusedNext, ⟨.empty, ?_, .empty⟩, ?_⟩
  · exact rows _ (kept _ ((tables _).mpr (.inr rfl)))
  · intro field declared
    exact ⟨.empty, rows _ (present field declared), .empty⟩

omit [LawfulIdentifier ι] in
theorem openStored_of_isOk (unused : db.Unused)
    (accepted : (openStored name fields db).1.isOk = true) :
    openStored name fields db = (.ok (stored name fields), (openStored name fields db).2) := by
  cases opened : openStored name fields db with
  | mk answer next =>
    rw [opened] at accepted
    cases answer with
    | error cause => cases accepted
    | ok collection => rw [(openStored_unused unused opened).1]

end

end Collection

end DocStore
