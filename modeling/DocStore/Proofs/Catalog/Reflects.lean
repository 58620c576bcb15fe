import DocStore.Collection.Update
import DocStore.Proofs.Catalog.Basic
import DocStore.Proofs.Except
import Mathlib.Data.List.Nodup

/-! What a series of changes leaves of an empty collection. `Reflects` is the invariant of the
indexes: it gives every entry from the changes alone, so it says in one place that nothing is missing
from an entry, that nothing is stale in it, and which entries exist. -/
namespace DocStore

/-- A change of the records of a collection. -/
inductive Change (α ι : Type) where
  | put (record : α)
  | drop (id : ι)

variable {α ι : Type}

/-- The changes made, after one more was tried and answered. -/
def Change.tried (change : Change α ι) (answer : Except QueryError Bool)
    (changes : List (Change α ι)) : List (Change α ι) :=
  match answer with
  | .ok true => change :: changes
  | _ => changes

theorem Change.tried_append (change : Change α ι) (answer : Except QueryError Bool)
    (changes earlier : List (Change α ι)) :
    change.tried answer (changes ++ earlier) = change.tried answer changes ++ earlier := by
  unfold tried
  split <;> rfl

section

variable [DecidableEq ι] [Record α ι]

/-- The record that some changes, the latest one first, leave under an id. -/
def Change.current? (id : ι) : List (Change α ι) → Option α
  | [] => none
  | .put record :: earlier => if Record.id record = id then some record else current? id earlier
  | .drop other :: earlier => if other = id then none else current? id earlier

theorem Change.put_mem_of_current? {id : ι} {changes : List (Change α ι)} {record : α}
    (found : current? id changes = some record) :
    .put record ∈ changes ∧ Record.id record = id := by
  induction changes with
  | nil => simp [current?] at found
  | cons change earlier ih =>
    cases change with
    | put latest =>
      by_cases same : Record.id latest = id
      · have eq : latest = record := by simpa [current?, same] using found
        subst eq
        exact ⟨List.mem_cons_self .., same⟩
      · obtain ⟨member, owner⟩ := ih (by simpa [current?, same] using found)
        exact ⟨List.mem_cons_of_mem _ member, owner⟩
    | drop other =>
      by_cases same : other = id
      · simp [current?, same] at found
      · obtain ⟨member, owner⟩ := ih (by simpa [current?, same] using found)
        exact ⟨List.mem_cons_of_mem _ member, owner⟩

end

namespace IndexedField

variable {field : IndexedField α} {record : α}

/-- The entry that lists a record for the field. -/
def entry (record : α) (field : IndexedField α) : Except QueryError (IndexName × IndexValue) := do
  let value ← (field.project record).mapError .projection
  pure (field.name, value)

theorem entry_eq_ok_iff {listing : IndexName × IndexValue} :
    field.entry record = .ok listing ↔
      listing.1 = field.name ∧ field.project record = .ok listing.2 := by
  rw [entry]
  cases field.project record with
  | error reason => exact ⟨nofun, nofun⟩
  | ok value =>
    constructor
    · rintro ⟨⟩
      exact ⟨rfl, rfl⟩
    · rintro ⟨named, found⟩
      rw [← named, Except.ok.inj found]
      rfl

theorem entry_eq_error_iff {error : QueryError} :
    field.entry record = .error error ↔
      ∃ reason, field.project record = .error reason ∧ error = .projection reason := by
  rw [entry]
  cases field.project record with
  | error reason =>
    constructor
    · rintro ⟨⟩
      exact ⟨reason, rfl, rfl⟩
    · rintro ⟨_, ⟨⟩, rfl⟩
      rfl
  | ok value => exact ⟨nofun, nofun⟩

theorem exists_entry_iff :
    (∃ listing, field.entry record = .ok listing) ↔ ∃ value, field.project record = .ok value := by
  simp only [entry_eq_ok_iff]
  exact ⟨fun ⟨listing, _, found⟩ => ⟨listing.2, found⟩,
    fun ⟨value, found⟩ => ⟨(field.name, value), rfl, found⟩⟩

end IndexedField

/-- The entries that list a record: one for each field, in their order, under the projected value. -/
def ProjectsTo (fields : List (IndexedField α)) (record : α)
    (entries : List (IndexName × IndexValue)) : Prop :=
  List.Forall₂ (fun field entry => entry.1 = field.name ∧ field.project record = .ok entry.2)
    fields entries

namespace ProjectsTo

variable {fields : List (IndexedField α)} {record : α} {entries : List (IndexName × IndexValue)}

theorem names (projects : ProjectsTo fields record entries) :
    entries.map Prod.fst = fields.map IndexedField.name := by
  induction projects with
  | nil => rfl
  | cons head _ ih => simp [head.1, ih]

theorem declared (projects : ProjectsTo fields record entries) :
    ∀ entry ∈ entries, entry.1 ∈ fields.map IndexedField.name := by
  intro entry member
  rw [← projects.names]
  exact List.mem_map_of_mem member

theorem unique (projects : ProjectsTo fields record entries)
    {others : List (IndexName × IndexValue)} (same : ProjectsTo fields record others) :
    entries = others := by
  induction projects generalizing others with
  | nil =>
    cases same
    rfl
  | cons head _ ih =>
    cases same with
    | cons other rest =>
      rw [ih rest]
      congr 1
      exact Prod.ext (head.1.trans other.1.symm) (Except.ok.inj (head.2.symm.trans other.2))

theorem listed (projects : ProjectsTo fields record entries) {field : IndexedField α}
    (declared : field ∈ fields) :
    ∃ value, (field.name, value) ∈ entries ∧ field.project record = .ok value := by
  induction projects with
  | nil => simp at declared
  | @cons first entry _ _ head _ ih =>
    rcases List.mem_cons.mp declared with same | later
    · subst same
      exact ⟨entry.2, by simp [← head.1], head.2⟩
    · obtain ⟨value, member, projected⟩ := ih later
      exact ⟨value, List.mem_cons_of_mem _ member, projected⟩

theorem mem_iff (projects : ProjectsTo fields record entries)
    (distinct : (fields.map IndexedField.name).Nodup) {field : IndexedField α}
    (declared : field ∈ fields) {value : IndexValue} :
    (field.name, value) ∈ entries ↔ field.project record = .ok value := by
  obtain ⟨projected, member, project⟩ := projects.listed declared
  rw [← projects.names] at distinct
  constructor
  · intro here
    have same := List.inj_on_of_nodup_map distinct here member rfl
    rw [(Prod.mk.inj same).2]
    exact project
  · intro same
    have eq : projected = value := Except.ok.inj (project.symm.trans same)
    subst eq
    exact member

end ProjectsTo

namespace Collection

variable {σ τ : Type}

theorem project_eq_mapM (collection : Collection σ τ α ι) (record : α) :
    collection.project record = collection.fields.mapM (IndexedField.entry record) := rfl

theorem project_eq_ok_iff {collection : Collection σ τ α ι} {record : α}
    {entries : List (IndexName × IndexValue)} :
    collection.project record = .ok entries ↔ ProjectsTo collection.fields record entries := by
  rw [project_eq_mapM, mapM_eq_ok_iff]
  simp only [IndexedField.entry_eq_ok_iff]
  exact Iff.rfl

theorem project_cases (collection : Collection σ τ α ι) (record : α) :
    (∃ entries, ProjectsTo collection.fields record entries ∧
        collection.project record = .ok entries) ∨
      ∃ field ∈ collection.fields, ∃ reason, field.project record = .error reason ∧
        collection.project record = .error (.projection reason) := by
  cases projected : collection.project record with
  | ok entries => exact .inl ⟨entries, project_eq_ok_iff.mp projected, rfl⟩
  | error error =>
    obtain ⟨before, field, after, split, _, failed⟩ := mapM_eq_error_iff.mp projected
    obtain ⟨reason, refused, rfl⟩ := IndexedField.entry_eq_error_iff.mp failed
    exact .inr ⟨field, by simp [split], reason, refused, rfl⟩

end Collection

variable [DecidableEq ι] [Record α ι]

/-- The catalog is what some changes, the latest one first, leave of an empty one: its records are
the current ones, a value has an entry if a record that was ever put projects to it, and an entry
lists the current records that project to its value. -/
structure Catalog.Reflects (fields : List (IndexedField α)) (changes : List (Change α ι))
    (catalog : Catalog α ι) : Prop where
  records : ∀ id, catalog.records id = Change.current? id changes
  projected : ∀ record, .put record ∈ changes →
    ∀ field ∈ fields, ∃ value, field.project record = .ok value
  absent : ∀ field ∈ fields, ∀ value, catalog.entries field.name value = none →
    ∀ record, .put record ∈ changes → field.project record ≠ .ok value
  used : ∀ field ∈ fields, ∀ value set, catalog.entries field.name value = some set →
    ∃ record, .put record ∈ changes ∧ field.project record = .ok value
  listed : ∀ field ∈ fields, ∀ value set, catalog.entries field.name value = some set →
    ∀ id, id ∈ set ↔ ∃ record, catalog.records id = some record ∧ field.project record = .ok value

namespace Catalog.Reflects

variable {fields : List (IndexedField α)} {changes : List (Change α ι)} {catalog : Catalog α ι}
  {record : α} {entries : List (IndexName × IndexValue)}

theorem empty : Reflects fields [] (Catalog.empty : Catalog α ι) where
  records _ := rfl
  projected := by simp
  absent := by simp
  used := by simp [Catalog.empty]
  listed := by simp [Catalog.empty]

theorem put_mem (reflects : Reflects fields changes catalog) {id : ι}
    (found : catalog.records id = some record) : .put record ∈ changes ∧ Record.id record = id :=
  Change.put_mem_of_current? (by rw [← reflects.records, found])

/-- The entry of a value lists an id exactly when the record of the id has the value. -/
theorem exists_listed_iff (reflects : Reflects fields changes catalog) {field : IndexedField α}
    (declared : field ∈ fields) {value : IndexValue} {id : ι} :
    (∃ set, catalog.entries field.name value = some set ∧ id ∈ set) ↔
      ∃ record, catalog.records id = some record ∧ field.project record = .ok value := by
  constructor
  · rintro ⟨set, found, member⟩
    exact (reflects.listed field declared value set found id).mp member
  · rintro ⟨record, stored, projected⟩
    cases found : catalog.entries field.name value with
    | none =>
      exact absurd projected
        (reflects.absent field declared value found record (reflects.put_mem stored).1)
    | some set =>
      exact ⟨set, rfl, (reflects.listed field declared value set found id).mpr
        ⟨record, stored, projected⟩⟩

theorem project_stored {σ τ : Type} {collection : Collection σ τ α ι}
    (reflects : Reflects collection.fields changes catalog) {id : ι}
    (stored : catalog.records id = some record) :
    ∃ entries, ProjectsTo collection.fields record entries ∧
      collection.project record = .ok entries := by
  rcases collection.project_cases record with projects | ⟨field, declared, reason, failed, _⟩
  · exact projects
  · obtain ⟨value, projected⟩ :=
      reflects.projected record (reflects.put_mem stored).1 field declared
    rw [failed] at projected
    cases projected

theorem entry_eq_none_iff (reflects : Reflects fields changes catalog) {field : IndexedField α}
    (declared : field ∈ fields) {value : IndexValue} :
    catalog.entries field.name value = none ↔
      ∀ record, .put record ∈ changes → field.project record ≠ .ok value := by
  constructor
  · exact reflects.absent field declared value
  · intro unused
    cases found : catalog.entries field.name value with
    | none => rfl
    | some set =>
      obtain ⟨record, member, projected⟩ := reflects.used field declared value set found
      exact absurd projected (unused record member)

/-- A stored id is listed in exactly one entry of an index. -/
theorem listed_once (reflects : Reflects fields changes catalog) {field : IndexedField α}
    (declared : field ∈ fields) {id : ι} (stored : catalog.records id = some record) :
    ∃! value, ∃ set, catalog.entries field.name value = some set ∧ id ∈ set := by
  obtain ⟨value, projected⟩ :=
    reflects.projected record (reflects.put_mem stored).1 field declared
  refine ⟨value, (reflects.exists_listed_iff declared).mpr ⟨record, stored, projected⟩, ?_⟩
  intro other given
  obtain ⟨same, stored', projected'⟩ := (reflects.exists_listed_iff declared).mp given
  obtain rfl : same = record := Option.some.inj (stored'.symm.trans stored)
  exact Except.ok.inj (projected'.symm.trans projected)

theorem put (reflects : Reflects fields changes catalog)
    (distinct : (fields.map IndexedField.name).Nodup)
    (free : catalog.records (Record.id record) = none)
    (projects : ProjectsTo fields record entries) :
    Reflects fields (.put record :: changes) (catalog.insert (Record.id record) record entries) := by
  have lookup (field : IndexedField α) (declared : field ∈ fields) (value : IndexValue) :
      (catalog.insert (Record.id record) record entries).entries field.name value =
        if field.project record = .ok value then
          some (revised (.single (Record.id record)) (fun set => set.insert (Record.id record))
            (catalog.entries field.name value))
        else catalog.entries field.name value := by
    rw [Catalog.insert, foldl_revise_entries (by rw [projects.names]; exact distinct)]
    simp only [projects.mem_iff distinct declared]
    rfl
  constructor
  case records =>
    intro id
    rw [insert_records, Change.current?, reflects.records id]
    simp only [eq_comm]
  case projected =>
    intro other member field declared
    rcases List.mem_cons.mp member with same | earlier
    · obtain rfl : other = record := by simpa using same
      obtain ⟨value, _, projected⟩ := projects.listed declared
      exact ⟨value, projected⟩
    · exact reflects.projected other earlier field declared
  case absent =>
    intro field declared value none other member
    rw [lookup field declared value] at none
    split at none
    case isTrue => cases none
    case isFalse differs =>
      rcases List.mem_cons.mp member with same | earlier
      · obtain rfl : other = record := by simpa using same
        exact differs
      · exact reflects.absent field declared value none other earlier
  case used =>
    intro field declared value set found
    rw [lookup field declared value] at found
    split at found
    case isTrue projected => exact ⟨record, List.mem_cons_self .., projected⟩
    case isFalse =>
      obtain ⟨other, earlier, projected⟩ := reflects.used field declared value set found
      exact ⟨other, List.mem_cons_of_mem _ earlier, projected⟩
  case listed =>
    intro field declared value set found id
    rw [lookup field declared value] at found
    simp only [insert_records]
    split at found
    case isTrue projected =>
      cases current : catalog.entries field.name value with
      | none =>
        obtain rfl : IdSet.single (Record.id record) = set := by simpa [current, revised] using found
        rw [IdSet.mem_single]
        by_cases same : id = Record.id record
        · simp [same, projected]
        · simp only [same, if_false, false_iff]
          intro given
          obtain ⟨other, stored, projectedOther⟩ := given
          exact reflects.absent field declared value current other (reflects.put_mem stored).1
            projectedOther
      | some old =>
        obtain rfl : old.insert (Record.id record) = set := by simpa [current, revised] using found
        rw [IdSet.mem_insert, reflects.listed field declared value old current]
        by_cases same : id = Record.id record
        · simp [same, projected]
        · simp [same]
    case isFalse differs =>
      rw [reflects.listed field declared value set found]
      by_cases same : id = Record.id record
      · simp [same, free, differs]
      · simp [same]

theorem drop (reflects : Reflects fields changes catalog)
    (distinct : (fields.map IndexedField.name).Nodup) {id : ι}
    (found : catalog.records id = some record)
    (projects : ProjectsTo fields record entries) :
    Reflects fields (.drop id :: changes) (catalog.remove id entries) := by
  have lookup (field : IndexedField α) (declared : field ∈ fields) (value : IndexValue) :
      (catalog.remove id entries).entries field.name value =
        if field.project record = .ok value then
          some (revised .empty (fun set => set.erase id) (catalog.entries field.name value))
        else catalog.entries field.name value := by
    rw [Catalog.remove, foldl_revise_entries (by rw [projects.names]; exact distinct)]
    simp only [projects.mem_iff distinct declared]
    rfl
  constructor
  case records =>
    intro other
    rw [remove_records, Change.current?, reflects.records other]
    simp only [eq_comm]
  case projected =>
    intro other member field declared
    exact reflects.projected other (by simpa using member) field declared
  case absent =>
    intro field declared value none other member
    rw [lookup field declared value] at none
    split at none
    case isTrue => cases none
    case isFalse =>
      exact reflects.absent field declared value none other (by simpa using member)
  case used =>
    intro field declared value set stored
    rw [lookup field declared value] at stored
    split at stored
    case isTrue projected =>
      exact ⟨record, List.mem_cons_of_mem _ (reflects.put_mem found).1, projected⟩
    case isFalse =>
      obtain ⟨other, earlier, projected⟩ := reflects.used field declared value set stored
      exact ⟨other, List.mem_cons_of_mem _ earlier, projected⟩
  case listed =>
    intro field declared value set stored other
    rw [lookup field declared value] at stored
    simp only [remove_records]
    split at stored
    case isTrue projected =>
      cases current : catalog.entries field.name value with
      | none =>
        exact absurd projected
          (reflects.absent field declared value current record (reflects.put_mem found).1)
      | some old =>
        obtain rfl : old.erase id = set := by simpa [current, revised] using stored
        rw [IdSet.mem_erase, reflects.listed field declared value old current]
        by_cases same : other = id
        · simp [same]
        · simp [same]
    case isFalse differs =>
      rw [reflects.listed field declared value set stored]
      by_cases same : other = id
      · simp [same, found, differs]
      · simp [same]

end Catalog.Reflects

end DocStore
