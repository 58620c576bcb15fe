import DocStore.Proofs.Collection.Transactional

namespace DocStore

open Database (foldName)

namespace Collection

variable {α ι : Type} [DecidableEq ι] [Identifier ι] [Record α ι]

/-- A database in which some changes are published and no transaction is open. -/
structure Idle (name : String) (fields : List (IndexedField α)) (changes : List (Change α ι))
    (db : Database) : Prop where
  sound : Sound name fields (fun _ => []) changes db
  unlocked : db.isLocked = false

variable {name : String} {fields : List (IndexedField α)} {changes : List (Change α ι)}
  {db : Database}

theorem Idle.renumber (idle : Idle name fields changes db) {later : Nat} (reached : db.next ≤ later) :
    Idle name fields changes { db with next := later } where
  sound := idle.sound.renumber reached
  unlocked := idle.unlocked

variable [LawfulIdentifier ι]

omit [LawfulIdentifier ι] in
theorem idle_opened {collection : Collection Database Nat α ι} {start : Database}
    (opened : openStored name fields .empty = (.ok collection, start)) :
    collection = stored name fields ∧ Idle name fields ([] : List (Change α ι)) start := by
  obtain ⟨same, unused, empty⟩ := openStored_unused Database.unused_empty opened
  refine ⟨same, sound_unused unused empty, ?_⟩
  rw [Database.isLocked, unused.opened]
  rfl

theorem Idle.insert (idle : Idle name fields changes db)
    (distinct : (fields.map fun field => foldName field.name.text).Nodup) {record : α}
    (writable : Codec.record.Keeps record) {entries : List (IndexName × IndexValue)}
    (projected : (stored name fields : Collection _ _ α ι).project record = .ok entries) :
    ∃ next, (stored name fields).insert record db =
        (.ok (Change.current? (Record.id record) changes).isNone, next) ∧
      Idle name fields
        (if (Change.current? (Record.id record) changes).isNone then .put record :: changes
          else changes) next := by
  obtain ⟨catalog, shows, reflects⟩ := idle.sound.committed
  have keeps : ∀ other, Change.put record = (.put other : Change α ι) → Codec.record.Keeps other := by
    intro other same
    cases same
    exact writable
  obtain ⟨next, made, sound, unlocked⟩ :=
    idle.sound.alone idle.unlocked distinct keeps shows reflects
  have answer : (stored name fields).answerTo catalog (.put record) =
      .ok (Change.current? (Record.id record) changes).isNone := by
    rw [answerTo, projected, reflects.records]
    rfl
  rw [answer] at made sound
  refine ⟨next, made, ?_, unlocked⟩
  cases free : (Change.current? (Record.id record) changes).isNone with
  | true =>
    rw [free] at sound
    exact sound
  | false =>
    rw [free] at sound
    exact sound

theorem Idle.remove (idle : Idle name fields changes db)
    (distinct : (fields.map fun field => foldName field.name.text).Nodup) (id : ι) :
    ∃ next, (stored name fields).remove id db =
        (.ok (Change.current? id changes).isSome, next) ∧
      Idle name fields
        (if (Change.current? id changes).isSome then .drop id :: changes else changes) next := by
  obtain ⟨catalog, shows, reflects⟩ := idle.sound.committed
  have keeps : ∀ other, Change.drop id = (.put other : Change α ι) → Codec.record.Keeps other := by
    intro other same
    cases same
  obtain ⟨next, made, sound, unlocked⟩ :=
    idle.sound.alone idle.unlocked distinct keeps shows reflects
  have answer : (stored name fields).answerTo catalog (.drop id) =
      .ok (Change.current? id changes).isSome := by
    rw [answerTo, reflects.records]
  rw [answer] at made sound
  refine ⟨next, made, ?_, unlocked⟩
  cases present : (Change.current? id changes).isSome with
  | true =>
    rw [present] at sound
    exact sound
  | false =>
    rw [present] at sound
    exact sound

/-- The plan of a single identifier looks the record up. -/
theorem Idle.find_byId (idle : Idle name fields changes db) {scope : Scope} {expr : Expr} {id : ι}
    (planned : (stored name fields : Collection _ _ α ι).plan scope expr = .ok (.byId id)) :
    ∃ next, (stored name fields).find scope expr db =
        (.ok (Change.current? id changes).toList, next) ∧
      Idle name fields changes next := by
  obtain ⟨catalog, shows, reflects⟩ := idle.sound.committed
  have declared : ∀ index ∈ (Operation.byId id).indexNames,
      index ∈ (stored name fields : Collection _ _ α ι).indexNames := by
    simp [Operation.indexNames]
  obtain ⟨_, success, later, reached, rfl, _⟩ :=
    (stored_reads idle.sound.bounded).execute ⟨db.next, Nat.le_refl _, rfl, shows⟩ declared
  refine ⟨{ db with next := later }, ?_, idle.renumber reached⟩
  rw [find, planned, Action.bind_of_ok (Action.ofExcept_apply ..), success, Catalog.answer,
    reflects.records]

theorem Idle.keys (idle : Idle name fields changes db) :
    ∃ found, (stored name fields : Collection _ _ α ι).records.keys db = (.ok found, db) ∧
      found.Nodup ∧ ∀ id, id ∈ found ↔ Change.current? id changes ≠ none := by
  obtain ⟨catalog, shows, reflects⟩ := idle.sound.committed
  obtain ⟨rows, present, shown⟩ := shows.records
  obtain ⟨found, success, distinct, exact⟩ :=
    Database.keys_of_rows present shown Codec.identifier_keeps
  refine ⟨found, success, distinct, ?_⟩
  intro id
  rw [exact id, reflects.records]

end Collection

end DocStore
