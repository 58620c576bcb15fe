import DocStore.Proofs.Collection.Transactional
import DocStore.Proofs.Database.Rows

namespace DocStore

open Database (foldName textAt? setText clearText SameBut)

namespace Collection

variable {α ι : Type} [DecidableEq ι] [Identifier ι]

def recordRow (name : String) (id : ι) : String × String :=
  (foldName name, (Identifier.toJson id).compact)

def entryRow (name : String) (entry : IndexName × IndexValue) : String × String :=
  (foldName (indexTable name entry.1), entry.2.toJson.compact)

/-- The row of an index entry goes from the text of one set, the empty one if there is no row, to a text
of another. -/
def EntryTurns (turn : IdSet ι → IdSet ι) (before after : Contents) (row : String × String) : Prop :=
  ∃ former text, (textAt? before row).elim (some .empty) Codec.idSet.decode? = some former ∧
    textAt? after row = some text ∧ Codec.idSet.decode? text = some (turn former)

/-- The row of an index entry is written anew. It held the text of one set, one without members if there
was no row, and holds the text of another. -/
def EntryRewritten (before after : Contents) (row : String × String) (former latter : IdSet ι) : Prop :=
  (match textAt? before row with
    | some text => Codec.idSet.decode? text = some former
    | none => ∀ id, id ∉ former) ∧
  ∃ text, textAt? after row = some text ∧ Codec.idSet.decode? text = some latter

/-- A record is new, its id is added to an entry of each index, and every other row is as before. -/
structure Added [Record α ι] (name : String) (fields : List (IndexedField α)) (record : α)
    (entries : List (IndexName × IndexValue)) (before after : Contents) : Prop where
  projects : ProjectsTo fields record entries
  absent : textAt? before (recordRow name (Record.id record)) = none
  written : ∃ text, Codec.record.encode record = .ok text ∧
    textAt? after (recordRow name (Record.id record)) = some text
  listed : ∀ entry ∈ entries, ∃ former latter : IdSet ι,
    EntryRewritten before after (entryRow name entry) former latter ∧
      ∀ id, id ∈ latter ↔ id ∈ former ∨ id = Record.id record
  others : SameBut before after (recordRow name (Record.id record) :: entries.map (entryRow name))

/-- The record with an id is gone, its id is taken from an entry of each index, and every other row is as
before. -/
structure Dropped [Record α ι] (name : String) (fields : List (IndexedField α)) (id : ι) (record : α)
    (entries : List (IndexName × IndexValue)) (before after : Contents) : Prop where
  projects : ProjectsTo fields record entries
  present : (textAt? before (recordRow name id)).bind Codec.record.decode? = some record
  erased : textAt? after (recordRow name id) = none
  struck : ∀ entry ∈ entries, ∃ former latter : IdSet ι,
    EntryRewritten before after (entryRow name entry) former latter ∧
      ∀ other, other ∈ latter ↔ other ∈ former ∧ other ≠ id
  others : SameBut before after (recordRow name id :: entries.map (entryRow name))

section

variable {name : String} {before middle after contents : Contents} {row other : String × String}
  {turn : IdSet ι → IdSet ι} {touched : List (String × String)}
  {entries : List (IndexName × IndexValue)}

omit [DecidableEq ι] in
theorem entryRow_ne_recordRow (name : String) (entry : IndexName × IndexValue) (id : ι) :
    entryRow name entry ≠ recordRow name id :=
  fun same => indexTable_ne name entry.1 (congrArg Prod.fst same)

omit [DecidableEq ι] [Identifier ι] in
/-- Indexes told apart without regard to case have rows of their own. -/
theorem entryRows_nodup (name : String)
    (apart : (entries.map fun entry => foldName entry.1.text).Nodup) :
    (entries.map (entryRow name)).Nodup := by
  rw [List.nodup_map_iff_inj_on (apart.of_map _)]
  intro entry here other there same
  exact List.inj_on_of_nodup_map apart here there (foldName_of_indexTable (congrArg Prod.fst same))

theorem EntryTurns.rewritten (turns : EntryTurns turn before after row) :
    ∃ former, EntryRewritten before after row former (turn former) := by
  obtain ⟨former, text, decoded, written, reads⟩ := turns
  refine ⟨former, ?_, text, written, reads⟩
  cases found : textAt? before row with
  | some text =>
    rw [found] at decoded
    exact decoded
  | none =>
    rw [found] at decoded
    cases decoded
    exact fun id => IdSet.not_mem_empty

theorem EntryTurns.congr (turns : EntryTurns turn before after row) {earlier later : Contents}
    (same : textAt? before row = textAt? earlier row) (still : textAt? later row = textAt? after row) :
    EntryTurns turn earlier later row := by
  obtain ⟨former, text, decoded, written, reads⟩ := turns
  exact ⟨former, text, by rw [← same]; exact decoded, by rw [still]; exact written, reads⟩

end

section

variable [LawfulIdentifier ι] {name : String} {base next : Database} {tx : Nat}
  {contents : Contents} {first : IdSet ι} {turn : IdSet ι → IdSet ι}
  {act : IndexName × IndexValue → QueryAction Database Unit} {entries : List (IndexName × IndexValue)}

/-- An update that was made turned the row of its entry and no other. -/
theorem addOrUpdate_turns {entry : IndexName × IndexValue} {set : IdSet ι}
    (start : turn .empty = first)
    (success : Database.addOrUpdate (indexTable name entry.1) Codec.indexValue Codec.idSet tx entry.2
      first (fun _ set => turn set) (base.writing tx contents true) = (.ok set, next)) :
    ∃ after, next = base.writing tx after true ∧
      EntryTurns turn contents after (entryRow name entry) ∧
      SameBut contents after [entryRow name entry] := by
  obtain ⟨key, text, current, named, encoded, ⟨rows, present⟩, held, value, rfl⟩ :=
    Database.addOrUpdate_writing_eq_ok success
  obtain rfl : entry.2.toJson.compact = key := Except.ok.inj named
  obtain ⟨written, encodes, reads⟩ := Codec.idSet_keeps set
  obtain rfl : written = text := Except.ok.inj (encodes.symm.trans encoded)
  have stands : textAt? (setText contents (entryRow name entry) written) (entryRow name entry) =
      some written := by rw [Database.textAt?_setText, if_pos rfl]
  refine ⟨_, rfl, ⟨current.getD .empty, written, ?_, stands, ?_⟩,
    Database.sameBut_setText present written⟩
  · change (textAt? contents (entryRow name entry)).map _ = _ at held
    cases here : textAt? contents (entryRow name entry) with
    | none =>
      rw [here] at held
      cases current with
      | none => rfl
      | some set => cases held
    | some text =>
      rw [here] at held
      cases current with
      | none => cases held
      | some set => exact Option.some.inj held
  · rw [reads, value]
    cases current with
    | none => rw [Option.elim_none, ← start]; rfl
    | some set => rfl

theorem updated_entry [Record α ι] {fields : List (IndexedField α)} {entry : IndexName × IndexValue}
    (declared : entry.1 ∈ fields.map IndexedField.name) (start : turn .empty = first)
    (success : (stored name fields : Collection _ _ α ι).reviseIndex tx first turn entry
      (base.writing tx contents true) = (.ok (), next)) :
    ∃ after, next = base.writing tx after true ∧
      EntryTurns turn contents after (entryRow name entry) ∧
      SameBut contents after [entryRow name entry] := by
  obtain ⟨field, member, named⟩ := List.mem_map.mp declared
  rw [reviseIndex, ← named, index_stored member, Action.bind_of_ok (Action.ofExcept_apply ..)] at success
  obtain ⟨set, _, updated, made⟩ := Action.bind_eq_ok success
  cases made
  rw [named] at updated
  exact addOrUpdate_turns start (Action.mapError_eq_ok updated)

omit [LawfulIdentifier ι] in
/-- Entries in rows of their own are turned one after the other. -/
theorem forEntries_turns
    (acts : ∀ entry ∈ entries, ∀ {contents next},
      act entry (base.writing tx contents true) = (.ok (), next) →
      ∃ after, next = base.writing tx after true ∧
        EntryTurns turn contents after (entryRow name entry) ∧
        SameBut contents after [entryRow name entry])
    (apart : (entries.map (entryRow name)).Nodup)
    (success : forEntries act entries (base.writing tx contents true) = (.ok (), next)) :
    ∃ after, next = base.writing tx after true ∧
      (∀ entry ∈ entries, EntryTurns turn contents after (entryRow name entry)) ∧
      SameBut contents after (entries.map (entryRow name)) := by
  induction entries generalizing contents with
  | nil =>
    cases success
    exact ⟨contents, rfl, by simp, Database.sameBut_refl contents⟩
  | cons entry rest ih =>
    simp only [List.map_cons, List.nodup_cons] at apart
    obtain ⟨_, _, turned, success⟩ := Action.bind_eq_ok success
    obtain ⟨middle, rfl, turns, same⟩ := acts entry (by simp) turned
    obtain ⟨after, rfl, others, still⟩ :=
      ih (fun other member => acts other (by simp [member])) apart.2 success
    refine ⟨after, rfl, ?_, same.trans still⟩
    intro other member
    rcases List.mem_cons.mp member with rfl | later
    · exact turns.congr rfl (still.rows _ apart.1)
    · refine (others other later).congr (same.rows _ ?_) rfl
      intro shared
      apply apart.1
      rw [← List.mem_singleton.mp shared]
      exact List.mem_map_of_mem later

variable [Record α ι] {fields : List (IndexedField α)} {changed : Bool}

omit [DecidableEq ι] [Identifier ι] [LawfulIdentifier ι] [Record α ι] in
theorem rows_nodup_of_projects {record : α} (projects : ProjectsTo fields record entries)
    (apart : (fields.map fun field => foldName field.name.text).Nodup) :
    (entries.map (entryRow name)).Nodup := by
  apply entryRows_nodup
  have names := congrArg (List.map fun index : IndexName => foldName index.text) projects.names
  rw [List.map_map, List.map_map] at names
  exact names ▸ apart

theorem entries_turned {record : α} {middle : Contents} (id : ι) (turn : IdSet ι → IdSet ι)
    (projects : ProjectsTo fields record entries)
    (apart : (fields.map fun field => foldName field.name.text).Nodup) (start : turn .empty = first)
    (same : SameBut contents middle [recordRow name id])
    (success : forEntries ((stored name fields : Collection _ _ α ι).reviseIndex tx first turn) entries
      (base.writing tx middle true) = (.ok (), next)) :
    ∃ after, next = base.writing tx after true ∧
      textAt? after (recordRow name id) = textAt? middle (recordRow name id) ∧
      (∀ entry ∈ entries, EntryTurns turn contents after (entryRow name entry)) ∧
      SameBut contents after (recordRow name id :: entries.map (entryRow name)) := by
  obtain ⟨after, rfl, turns, still⟩ := forEntries_turns
    (fun entry member => updated_entry (projects.declared entry member) start)
    (rows_nodup_of_projects projects apart) success
  refine ⟨after, rfl, still.rows _ ?_, ?_, same.trans still⟩
  · intro shared
    obtain ⟨entry, _, here⟩ := List.mem_map.mp shared
    exact entryRow_ne_recordRow name entry id here
  · intro entry member
    refine (turns entry member).congr (same.rows _ ?_) rfl
    intro shared
    exact entryRow_ne_recordRow name entry id (List.mem_singleton.mp shared)

theorem insertIn_added {record : α}
    (apart : (fields.map fun field => foldName field.name.text).Nodup)
    (success : (stored name fields).insertIn tx record (base.writing tx contents changed) =
      (.ok true, next)) :
    ∃ after entries, next = base.writing tx after true ∧
      Added name fields record entries contents after ∧
      ∀ entry ∈ entries, EntryTurns (fun set => set.insert (Record.id record)) contents after
        (entryRow name entry) := by
  obtain ⟨entries, _, ended, success⟩ := Action.bind_eq_ok success
  obtain ⟨projected, rfl⟩ := Action.ofExcept_eq_ok ended
  have projects : ProjectsTo fields record entries := project_eq_ok_iff.mp projected
  obtain ⟨added, _, writes, success⟩ := Action.bind_eq_ok success
  cases added with
  | false => cases success
  | true =>
    obtain ⟨key, text, rows, named, encoded, present, absent, rfl⟩ :=
      Database.add_writing_eq_ok (Action.mapError_eq_ok writes)
    obtain rfl : (Identifier.toJson (Record.id record)).compact = key := Except.ok.inj named
    obtain ⟨_, _, listed, made⟩ := Action.bind_eq_ok success
    cases made
    obtain ⟨after, rfl, kept, turns, others⟩ := entries_turned (Record.id record)
      (fun set => set.insert (Record.id record)) projects apart (by rfl)
      (Database.sameBut_setText present text) listed
    refine ⟨after, entries, rfl, ⟨projects, absent, ⟨text, encoded, ?_⟩, ?_, others⟩, turns⟩
    · rw [kept, Database.textAt?_setText, if_pos rfl]
    · intro entry member
      obtain ⟨former, rewritten⟩ := (turns entry member).rewritten
      exact ⟨former, _, rewritten, fun _ => IdSet.mem_insert⟩

theorem removeIn_dropped {id : ι}
    (apart : (fields.map fun field => foldName field.name.text).Nodup)
    (success : (stored name fields).removeIn tx id (base.writing tx contents changed) =
      (.ok true, next)) :
    ∃ after record entries, next = base.writing tx after true ∧
      Dropped name fields id record entries contents after ∧
      ∀ entry ∈ entries, EntryTurns (fun set => set.erase id) contents after (entryRow name entry) := by
  obtain ⟨found, _, writes, success⟩ := Action.bind_eq_ok success
  cases found with
  | none => cases success
  | some record =>
    obtain ⟨key, text, rows, named, present, held, reads, rfl⟩ :=
      Database.remove_writing_eq_ok (Action.mapError_eq_ok writes)
    obtain rfl : (Identifier.toJson id).compact = key := Except.ok.inj named
    obtain ⟨entries, _, ended, success⟩ := Action.bind_eq_ok success
    obtain ⟨projected, rfl⟩ := Action.ofExcept_eq_ok ended
    have projects : ProjectsTo fields record entries := project_eq_ok_iff.mp projected
    obtain ⟨_, _, struck, made⟩ := Action.bind_eq_ok success
    cases made
    obtain ⟨after, rfl, kept, turns, others⟩ := entries_turned id (fun set => set.erase id) projects
      apart (by rfl) (Database.sameBut_clearText present) struck
    refine ⟨after, record, entries, rfl, ⟨projects, ?_, ?_, ?_, others⟩, turns⟩
    · rw [recordRow, held]
      exact reads
    · rw [kept, Database.textAt?_clearText, if_pos rfl]
    · intro entry member
      obtain ⟨former, rewritten⟩ := (turns entry member).rewritten
      exact ⟨former, _, rewritten, fun _ => IdSet.mem_erase⟩

end

section

variable [Record α ι] {name : String} {fields : List (IndexedField α)} {db next : Database}

private theorem fixes_update (tx : Nat) (entry : IndexName × IndexValue) (first : IdSet ι)
    (turn : IdSet ι → IdSet ι) :
    ((stored name fields : Collection _ _ α ι).reviseIndex tx first turn entry).Fixes
      Database.committed := by
  intro db
  cases found : (stored name fields : Collection _ _ α ι).index entry.1 with
  | error cause =>
    rw [reviseIndex, found]
    rfl
  | ok store =>
    obtain ⟨_, rfl⟩ := index_stored_eq_ok found
    rw [reviseIndex, found, Action.bind_of_ok (Action.ofExcept_apply ..)]
    exact ((Action.Fixes.mapError (Database.fixes_addOrUpdate (indexTable name entry.1) Codec.indexValue
      Codec.idSet tx entry.2 first fun _ set => turn set)).bind fun _ => Action.fixes_pure _) db

private theorem fixes_forEntries {act : IndexName × IndexValue → QueryAction Database Unit}
    (fixes : ∀ entry, (act entry).Fixes Database.committed) (entries : List (IndexName × IndexValue)) :
    (forEntries act entries).Fixes Database.committed := by
  induction entries with
  | nil => exact Action.fixes_pure _
  | cons entry rest ih => exact (fixes entry).bind fun _ => ih

/-- Nothing that happens inside a transaction is committed. -/
theorem fixes_insertIn (tx : Nat) (record : α) :
    ((stored name fields).insertIn tx record).Fixes Database.committed := by
  refine (Action.fixes_ofExcept _).bind fun entries =>
    (Action.Fixes.mapError (Database.fixes_add _ _ _ _ _ _)).bind ?_
  intro added
  cases added with
  | false => exact Action.fixes_pure _
  | true =>
    exact (fixes_forEntries (fun entry => fixes_update tx entry _ _) entries).bind fun _ =>
      Action.fixes_pure _

theorem fixes_removeIn (tx : Nat) (id : ι) :
    ((stored name fields : Collection _ _ α ι).removeIn tx id).Fixes Database.committed := by
  refine (Action.Fixes.mapError (Database.fixes_remove _ _ _ _ _)).bind fun found => ?_
  cases found with
  | none => exact Action.fixes_pure _
  | some record =>
    refine (Action.fixes_ofExcept _).bind fun entries => ?_
    exact (fixes_forEntries (fun entry => fixes_update tx entry _ _) entries).bind fun _ =>
      Action.fixes_pure _

/-- A change of its own ends in a commit when it was made, and in no commit otherwise. -/
theorem change_stored {body : Nat → QueryAction Database Bool} {answer : Except QueryError Bool}
    (fixes : ∀ tx, (body tx).Fixes Database.committed)
    (answered : (stored name fields : Collection _ _ α ι).change body db = (answer, next)) :
    answer ≠ .ok true ∧ next.committed = db.committed ∨
      answer = .ok true ∧ ∃ tx opened done, Database.begin db = (.ok tx, opened) ∧
        body tx opened = (.ok true, done) ∧ Database.commit tx done = (.ok (), next) := by
  have unpublished {tx opened outcome done} (begun : Database.begin db = (.ok tx, opened))
      (ended : body tx opened = (outcome, done)) : done.committed = db.committed :=
    ((fixes tx).eq ended).trans (Database.fixes_begin.eq begun)
  cases change_ends answered with
  | unbegun failed => exact .inl ⟨by simp, Database.fixes_begin.eq failed⟩
  | failed begun failed =>
    have same := unpublished begun failed
    exact .inl ⟨by simp, same⟩
  | unmade begun unmade aborted =>
    exact .inl ⟨by simp, ((Database.fixes_abort _).eq aborted).trans (unpublished begun unmade)⟩
  | unaborted begun unmade failed =>
    exact .inl ⟨by simp, ((Database.fixes_abort _).eq failed).trans (unpublished begun unmade)⟩
  | made begun made committed => exact .inr ⟨rfl, _, _, _, begun, made, committed⟩
  | uncommitted begun made failed =>
    rw [Database.commit_eq_error failed]
    exact .inl ⟨by simp, unpublished begun made⟩

end

/-- A collection with an index of a member inside a member and one of a member that may be missing. -/
def places : Collection Database Nat Numbered Int64 := stored "places" (IndexedField.members ["a.b", "c"])

end Collection

end DocStore
