import DocStore.Proofs.Collection.Atomic

/-! The tables of a collection in a database. They are pairwise different when the names of its indexes
differ in more than the case of letters, which is not checked when the collection is opened. Then each
index follows its own field, whatever the others do: `openStored_indexes_apart`. Otherwise two fields share
their entries, and a query finds records whose field has another value: `openStored_indexes_shared`. -/
namespace DocStore

open Database (foldName textAt? SameBut)

namespace Collection

variable {α ι : Type} [DecidableEq ι] [Identifier ι]

section

variable {name : String} {fields : List (IndexedField α)}

/-- The tables of a collection: that of the records, and one for each index. -/
def tables (name : String) (fields : List (IndexedField α)) : List String :=
  foldName name :: fields.map fun field => foldName (indexTable name field.name)

theorem foldName_indexTable (name : String) (index : IndexName) :
    foldName (indexTable name index) = foldName name ++ "_" ++ foldName index.text := by
  apply String.toList_injective
  simp only [Database.foldName_toList, indexTable, String.toList_append, List.map_append]
  rfl

/-- The tables are pairwise different just when the names of the indexes are, without regard to case. -/
theorem tables_nodup_iff :
    (tables name fields).Nodup ↔ (fields.map fun field => foldName field.name.text).Nodup := by
  have apart : foldName name ∉ fields.map fun field => foldName (indexTable name field.name) := by
    intro here
    obtain ⟨field, _, same⟩ := List.mem_map.mp here
    exact indexTable_ne name field.name same
  have prefixed : Function.Injective fun text => foldName name ++ "_" ++ text := by
    intro text other same
    have texts := congrArg String.toList same
    simp only [String.toList_append, List.append_cancel_left_eq] at texts
    exact String.toList_injective texts
  have mapped : fields.map (fun field => foldName (indexTable name field.name)) =
      (fields.map fun field => foldName field.name.text).map
        fun text => foldName name ++ "_" ++ text := by
    simp only [foldName_indexTable, List.map_map, Function.comp_def]
  rw [tables, List.nodup_cons, and_iff_right apart, mapped, List.nodup_map_iff prefixed]

end

/-- An index goes from one state to another by turning the entry of its own value of a record, and no other
entry. -/
def IndexTurns (name : String) (field : IndexedField α) (record : α) (turn : IdSet ι → IdSet ι)
    (before after : Contents) : Prop :=
  ∃ value, field.project record = .ok value ∧
    EntryTurns turn before after (entryRow name (field.name, value)) ∧
    ∀ other, other ≠ value → textAt? after (entryRow name (field.name, other)) =
      textAt? before (entryRow name (field.name, other))

section

variable {name : String} {fields : List (IndexedField α)} {before after : Contents}

omit [DecidableEq ι] [Identifier ι] in
theorem entryRow_injective (apart : (tables name fields).Nodup) {field other : IndexedField α}
    (declared : field ∈ fields) (there : other ∈ fields) {value further : IndexValue}
    (same : entryRow name (field.name, value) = entryRow name (other.name, further)) :
    field = other ∧ value = further := by
  constructor
  · exact List.inj_on_of_nodup_map (tables_nodup_iff.mp apart) declared there
      (foldName_of_indexTable (congrArg Prod.fst same))
  · have texts : value.toJson.compact = further.toJson.compact := congrArg Prod.snd same
    exact RowsShow.encode_injective Codec.indexValue_keeps rfl (congrArg Except.ok texts)

theorem indexTurns_of_entries {record : α} {id : ι} {turn : IdSet ι → IdSet ι}
    {entries : List (IndexName × IndexValue)} (apart : (tables name fields).Nodup)
    (projects : ProjectsTo fields record entries)
    (turns : ∀ entry ∈ entries, EntryTurns turn before after (entryRow name entry))
    (others : SameBut before after (recordRow name id :: entries.map (entryRow name)))
    {field : IndexedField α} (declared : field ∈ fields) :
    IndexTurns name field record turn before after := by
  obtain ⟨value, listed, projected⟩ := projects.listed declared
  refine ⟨value, projected, turns _ listed, fun other differs => others.rows _ ?_⟩
  intro touched
  rcases List.mem_cons.mp touched with same | touched
  · exact entryRow_ne_recordRow name _ id same
  · obtain ⟨⟨index, further⟩, here, same⟩ := List.mem_map.mp touched
    obtain ⟨field', declared', rfl⟩ := List.mem_map.mp (projects.declared _ here)
    obtain ⟨rfl, rfl⟩ := entryRow_injective apart declared' declared same
    have own := (projects.mem_iff (names_nodup (tables_nodup_iff.mp apart)) declared').mp here
    exact differs (Except.ok.inj (own.symm.trans projected))

end

section

variable [LawfulIdentifier ι] [Record α ι] {name : String} {fields : List (IndexedField α)}
  {base db next : Database} {tx : Nat} {contents : Contents} {changed : Bool}

theorem insertIn_indexTurns (apart : (tables name fields).Nodup) {record : α}
    (success : (stored name fields).insertIn tx record (base.writing tx contents changed) =
      (.ok true, next)) :
    ∃ after, next = base.writing tx after true ∧ ∀ field ∈ fields,
      IndexTurns name field record (fun set => set.insert (Record.id record)) contents after := by
  obtain ⟨after, entries, rfl, added, turns⟩ := insertIn_added (tables_nodup_iff.mp apart) success
  exact ⟨after, rfl, fun field declared =>
    indexTurns_of_entries apart added.projects turns added.others declared⟩

theorem removeIn_indexTurns (apart : (tables name fields).Nodup) {id : ι}
    (success : (stored name fields).removeIn tx id (base.writing tx contents changed) =
      (.ok true, next)) :
    ∃ after, next = base.writing tx after true ∧ ∃ record : α,
      (textAt? contents (recordRow name id)).bind Codec.record.decode? = some record ∧
      ∀ field ∈ fields, IndexTurns name field record (fun set => set.erase id) contents after := by
  obtain ⟨after, record, entries, rfl, dropped, turns⟩ :=
    removeIn_dropped (tables_nodup_iff.mp apart) success
  exact ⟨after, rfl, record, dropped.present, fun field declared =>
    indexTurns_of_entries apart dropped.projects turns dropped.others declared⟩

omit [LawfulIdentifier ι] in
/-- What a change makes of the view of its transaction it makes of the committed state, if it was made;
otherwise it makes nothing of it. -/
theorem committed_of_change {body : Nat → QueryAction Database Bool} {Makes : Contents → Contents → Prop}
    (fixes : ∀ tx, (body tx).Fixes Database.committed)
    (makes : ∀ {base : Database} {tx contents next},
      body tx (base.writing tx contents false) = (.ok true, next) →
      ∃ after, next = base.writing tx after true ∧ Makes contents after)
    {answer : Except QueryError Bool}
    (answered : (stored name fields : Collection _ _ α ι).change body db = (answer, next)) :
    (answer ≠ .ok true → next.committed = db.committed) ∧
      (answer = .ok true → Makes db.committed.contents next.committed.contents) := by
  rcases change_stored fixes answered with
    ⟨unmade, same⟩ | ⟨rfl, tx, opened, done, begun, made, committed⟩
  · exact ⟨fun _ => same, fun made => absurd made unmade⟩
  · obtain ⟨base, rfl⟩ := Database.begin_eq_ok begun
    obtain ⟨after, rfl, related⟩ := makes made
    rw [Database.commit_writing_eq_ok committed]
    exact ⟨fun unmade => absurd rfl unmade, fun _ => related⟩

/-- A lookup in the index of a field finds the committed records with that value of the field, and no
other. -/
theorem Sound.execute_byField {pending : Nat → List (Change α ι)} {published : List (Change α ι)}
    (sound : Sound name fields pending published db) {field : IndexedField α} (declared : field ∈ fields)
    (value : IndexValue) :
    ∃ found next, (stored name fields).execute (.byField field.name value) db = (.ok found, next) ∧
      ∀ record, record ∈ found ↔
        Change.current? (Record.id record) published = some record ∧ field.project record = .ok value := by
  obtain ⟨catalog, shows, reflects⟩ := sound.committed
  have named : ∀ index ∈ (Operation.byField field.name value : Operation ι).indexNames,
      index ∈ (stored name fields : Collection _ _ α ι).indexNames := by
    intro index same
    rw [List.mem_singleton.mp same]
    exact List.mem_map_of_mem declared
  obtain ⟨next, success, _⟩ :=
    (stored_reads sound.bounded).execute ⟨db.next, Nat.le_refl _, rfl, shows⟩ named
  refine ⟨_, next, success, fun record => ?_⟩
  rw [Catalog.answer, reflects.mem_listed declared, reflects.records]

/-- The tables of a collection that could be opened are pairwise different just when the names of its
indexes differ in more than the case of letters. Then an insertion or a removal, on whatever the database
holds, turns one entry of each index, that of the value of its own field; and after any session in a
database that was unused before, a lookup finds just the records with that value of the very field. -/
theorem openStored_indexes_apart (name : String) (fields : List (IndexedField α)) {start ready : Database}
    {collection : Collection Database Nat α ι}
    (opened : openStored name fields start = (.ok collection, ready)) :
    ((tables name fields).Nodup ↔ (fields.map fun field => foldName field.name.text).Nodup) ∧
    ((tables name fields).Nodup →
      (∀ db record answer next, collection.insert record db = (answer, next) →
        (answer ≠ .ok true → next.committed = db.committed) ∧
        (answer = .ok true → ∀ field ∈ fields,
          IndexTurns name field record (fun set => set.insert (Record.id record))
            db.committed.contents next.committed.contents)) ∧
      (∀ db id answer next, collection.remove id db = (answer, next) →
        (answer ≠ .ok true → next.committed = db.committed) ∧
        (answer = .ok true → ∃ record : α,
          (textAt? db.committed.contents (recordRow name id)).bind Codec.record.decode? = some record ∧
          ∀ field ∈ fields, IndexTurns name field record (fun set => set.erase id)
            db.committed.contents next.committed.contents)) ∧
      (start.Unused → ∀ steps : List (Step Nat α ι),
        (∀ step ∈ steps, ∀ record, step.Puts record → Codec.record.ReadsBack record) →
        ∀ field ∈ fields, ∀ value, ∃ found next,
          collection.execute (.byField field.name value) (collection.play steps ready).2 =
            (.ok found, next) ∧
          ∀ record, record ∈ found ↔
            Change.current? (Record.id record) (collection.play steps ready).1.published = some record ∧
              field.project record = .ok value)) := by
  refine ⟨tables_nodup_iff, fun apart => ⟨?_, ?_, ?_⟩⟩
  · obtain rfl := openStored_eq_ok opened
    intro db record answer next answered
    exact committed_of_change (fixes_insertIn · record) (insertIn_indexTurns apart) answered
  · obtain rfl := openStored_eq_ok opened
    intro db id answer next answered
    exact committed_of_change (fixes_removeIn · id) (removeIn_indexTurns apart) answered
  · intro unused steps readable field declared value
    obtain ⟨rfl, unused, empty⟩ := openStored_unused unused opened
    have sound := play_sound (sound_unused unused empty) (tables_nodup_iff.mp apart) readable
    exact sound.execute_byField declared value

end

/-- A record is found by the value of either index, where the second one has none. -/
theorem openStored_indexes_apart_nestedRecord :
    ∃ ready, openStored "places" (IndexedField.members ["a.b", "c"]) .empty = (.ok places, ready) ∧
      ∃ found next,
        places.execute (.byField (.parse "c") .null)
          (places.play [.alone (.put nestedRecord)] ready).2 = (.ok found, next) ∧
        nestedRecord ∈ found := by
  have readable : ∀ step ∈ ([.alone (.put nestedRecord)] : List (Step Nat Numbered Int64)),
      ∀ record, step.Puts record → Codec.record.ReadsBack record := by
    rintro step member record (rfl | ⟨tx, rfl⟩)
    · cases List.mem_singleton.mp member
      exact nestedRecord_keeps.readsBack
    · cases List.mem_singleton.mp member
  have declared : IndexedField.member (.parse "c") ∈
      (IndexedField.members ["a.b", "c"] : List (IndexedField Numbered)) :=
    List.mem_map.mpr ⟨"c", by simp, rfl⟩
  have opened : openStored "places" (IndexedField.members ["a.b", "c"]) .empty = (.ok places, _) :=
    openStored_of_isOk Database.unused_empty (by decide +kernel)
  obtain ⟨apart, follows⟩ := openStored_indexes_apart "places" _ opened
  obtain ⟨_, _, finds⟩ := follows (apart.mpr (by decide +kernel))
  obtain ⟨found, next, success, exact⟩ := finds Database.unused_empty _ readable _ declared .null
  exact ⟨_, opened, found, next, success, (exact nestedRecord).mpr (by decide +kernel)⟩

/-- A collection with indexes whose names differ in the case of a letter only. -/
def cased : Collection Database Nat Numbered Int64 := stored "people" (IndexedField.members ["A", "a"])

def casedRecord : Numbered := ⟨1, [("A", .string "x"), ("a", .string "y")]⟩

/-- A database that has the tables of this collection, and no rows in them. The two indexes have the same
one. -/
def casedTables : Database :=
  { Database.empty with committed := ⟨⟨[("people", .empty), ("people_a", .empty)], by decide⟩, 0⟩ }

theorem casedTables_unused : casedTables.Unused where
  opened := rfl
  rows := by
    intro table rows found
    have listed : (table, rows) ∈ [("people", Table.empty), ("people_a", .empty)] :=
      Table.get?_eq_some_iff.mp found
    rcases List.mem_pair.mp listed with same | same
    · exact congrArg Prod.snd same
    · exact congrArg Prod.snd same

/-- The collection is opened, and a lookup in one index finds the record by the value of the other. -/
theorem openStored_indexes_shared :
    ∃ ready, openStored "people" (IndexedField.members ["A", "a"]) casedTables = (.ok cased, ready) ∧
      ¬ (tables "people" cased.fields).Nodup ∧
      (cased.insert casedRecord ready).1 = .ok true ∧
      (cased.execute (.byField (.parse "A") (.text "y")) (cased.insert casedRecord ready).2).1 =
        .ok [casedRecord] ∧
      (IndexedField.member (.parse "A")).project casedRecord = .ok (.text "x") := by
  have opened : openStored "people" (IndexedField.members ["A", "a"]) casedTables = (.ok cased, _) :=
    openStored_of_isOk casedTables_unused (by decide +kernel)
  refine ⟨_, opened, ?_, ?_, ?_, ?_⟩
  · have folded : cased.fields.map (fun field => foldName field.name.text) = ["a", "a"] := by
      decide +kernel
    rw [tables_nodup_iff, folded]
    decide
  · decide +kernel
  · decide +kernel
  · decide +kernel

end Collection

end DocStore
