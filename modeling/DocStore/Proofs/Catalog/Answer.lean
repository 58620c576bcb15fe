import DocStore.Collection.Search
import DocStore.Proofs.Catalog.Reflects
import DocStore.Proofs.Query.Meaning

namespace DocStore

variable {α ι : Type} [DecidableEq ι] [Record α ι]

namespace Collection

/-- Two records of a list with one id are the same. -/
def OnePerId (records : List α) : Prop :=
  ∀ first ∈ records, ∀ second ∈ records, Record.id first = Record.id second → first = second

omit [DecidableEq ι] in
theorem mem_ids_iff {left right : List α} (single : OnePerId (left ++ right)) {record : α}
    (member : record ∈ left) : Record.id record ∈ right.map Record.id ↔ record ∈ right := by
  constructor
  · intro listed
    obtain ⟨other, here, same⟩ := List.mem_map.mp listed
    rw [single record (by simp [member]) other (by simp [here]) same.symm]
    exact here
  · exact List.mem_map_of_mem

theorem mem_intersect {left right : List α} (single : OnePerId (left ++ right)) {record : α} :
    record ∈ intersect left right ↔ record ∈ left ∧ record ∈ right := by
  rw [intersect, List.mem_filter, decide_eq_true_iff]
  constructor
  · intro given
    obtain ⟨member, listed⟩ := given
    exact ⟨member, (mem_ids_iff single member).mp listed⟩
  · intro given
    obtain ⟨member, other⟩ := given
    exact ⟨member, (mem_ids_iff single member).mpr other⟩

theorem mem_firstOfEach {records : List α} (single : OnePerId records) {seen : List ι} {record : α} :
    record ∈ firstOfEach seen records ↔ record ∈ records ∧ Record.id record ∉ seen := by
  induction records generalizing seen with
  | nil => simp [firstOfEach]
  | cons first rest ih =>
    have later : OnePerId rest := fun a memberA b memberB =>
      single a (List.mem_cons_of_mem _ memberA) b (List.mem_cons_of_mem _ memberB)
    rw [firstOfEach]
    split
    case isTrue known =>
      rw [ih later, List.mem_cons]
      constructor
      · intro given
        obtain ⟨member, unseen⟩ := given
        exact ⟨.inr member, unseen⟩
      · intro given
        rcases given with ⟨rfl | member, unseen⟩
        · exact absurd known unseen
        · exact ⟨member, unseen⟩
    case isFalse unknown =>
      rw [List.mem_cons, ih later, List.mem_cons, List.mem_cons, not_or]
      constructor
      · intro given
        rcases given with rfl | ⟨member, _, unseen⟩
        · exact ⟨.inl rfl, unknown⟩
        · exact ⟨.inr member, unseen⟩
      · intro given
        rcases given with ⟨rfl | member, unseen⟩
        · exact .inl rfl
        · by_cases same : Record.id record = Record.id first
          · exact .inl (single record (by simp [member]) first (by simp) same)
          · exact .inr ⟨member, same, unseen⟩

theorem mem_of_mem_firstOfEach {records : List α} {seen : List ι} {record : α}
    (member : record ∈ firstOfEach seen records) : record ∈ records := by
  induction records generalizing seen with
  | nil => simp [firstOfEach] at member
  | cons first rest ih =>
    rw [firstOfEach] at member
    split at member
    case isTrue => exact List.mem_cons_of_mem _ (ih member)
    case isFalse =>
      rcases List.mem_cons.mp member with rfl | later
      · exact List.mem_cons_self ..
      · exact List.mem_cons_of_mem _ (ih later)

theorem firstOfEach_nodup (seen : List ι) (records : List α) :
    ((firstOfEach seen records).map Record.id).Nodup ∧
      ∀ id ∈ (firstOfEach seen records).map Record.id, id ∉ seen := by
  induction records generalizing seen with
  | nil => simp [firstOfEach]
  | cons first rest ih =>
    rw [firstOfEach]
    split
    case isTrue => exact ih seen
    case isFalse unknown =>
      obtain ⟨distinct, unseen⟩ := ih (Record.id first :: seen)
      rw [List.map_cons, List.nodup_cons]
      refine ⟨⟨fun member => unseen _ member (by simp), distinct⟩, ?_⟩
      intro id member
      rcases List.mem_cons.mp member with rfl | later
      · exact unknown
      · exact fun known => unseen id later (by simp [known])

theorem firstOfEach_of_nodup {records : List α} (distinct : (records.map Record.id).Nodup)
    (seen : List ι) :
    firstOfEach seen records = records.filter fun record => decide (Record.id record ∉ seen) := by
  induction records generalizing seen with
  | nil => rfl
  | cons first rest ih =>
    rw [List.map_cons, List.nodup_cons] at distinct
    rw [firstOfEach]
    split
    case isTrue known => rw [ih distinct.2, List.filter_cons_of_neg (by simpa using known)]
    case isFalse unknown =>
      rw [ih distinct.2, List.filter_cons_of_pos (by simpa using unknown)]
      congr 1
      refine List.filter_congr ?_
      intro record member
      have other : Record.id record ≠ Record.id first := fun same =>
        distinct.1 (same ▸ List.mem_map_of_mem member)
      simp [other]

/-- Records with different ids that were not seen before are kept, and what follows them is compared
with them as well. -/
theorem firstOfEach_append {left : List α} (distinct : (left.map Record.id).Nodup) {seen : List ι}
    (unseen : ∀ record ∈ left, Record.id record ∉ seen) (right : List α) :
    firstOfEach seen (left ++ right) =
      left ++ firstOfEach ((left.map Record.id).reverse ++ seen) right := by
  induction left generalizing seen with
  | nil => rfl
  | cons first rest ih =>
    rw [List.map_cons, List.nodup_cons] at distinct
    rw [List.cons_append, firstOfEach, if_neg (unseen first (List.mem_cons_self ..)), ih distinct.2]
    · simp
    · intro record member known
      rcases List.mem_cons.mp known with same | earlier
      · exact distinct.1 (same ▸ List.mem_map_of_mem member)
      · exact unseen record (List.mem_cons_of_mem _ member) earlier

theorem union_eq_append {left right : List α} (distinctLeft : (left.map Record.id).Nodup)
    (distinctRight : (right.map Record.id).Nodup) :
    union left right =
      left ++ right.filter fun record => decide (Record.id record ∉ left.map Record.id) := by
  rw [union, firstOfEach_append distinctLeft (by simp), firstOfEach_of_nodup distinctRight]
  simp only [List.append_nil, List.mem_reverse]

theorem mem_union {left right : List α} (single : OnePerId (left ++ right)) {record : α} :
    record ∈ union left right ↔ record ∈ left ∨ record ∈ right := by
  rw [union, mem_firstOfEach single, List.mem_append]
  simp

end Collection

namespace Catalog

omit [Record α ι] [DecidableEq ι] in
/-- The records an entry lists, those without a record left out. -/
def listed (catalog : Catalog α ι) (name : IndexName) (value : IndexValue) : List α :=
  ((catalog.entries name value).getD .empty).ids.filterMap catalog.records

/-- The records a plan finds. -/
def answer (catalog : Catalog α ι) : Operation ι → List α
  | .byId id => (catalog.records id).toList
  | .byField name value => catalog.listed name value
  | .both left right => Collection.intersect (catalog.answer left) (catalog.answer right)
  | .either left right => Collection.union (catalog.answer left) (catalog.answer right)

variable {fields : List (IndexedField α)} {changes : List (Change α ι)} {catalog : Catalog α ι}

omit [DecidableEq ι] in
theorem onePerId {records : List α}
    (stored : ∀ record ∈ records, catalog.records (Record.id record) = some record) :
    Collection.OnePerId records := by
  intro first memberFirst second memberSecond same
  have found := stored first memberFirst
  rw [same, stored second memberSecond] at found
  exact (Option.some.inj found).symm

/-- Each record stands under its own id. -/
def Keyed (catalog : Catalog α ι) : Prop :=
  ∀ id record, catalog.records id = some record → Record.id record = id

namespace Keyed

omit [DecidableEq ι] in
theorem filterMap_records (keyed : catalog.Keyed) (ids : List ι) :
    (ids.filterMap catalog.records).map Record.id =
      ids.filter fun id => (catalog.records id).isSome := by
  induction ids with
  | nil => rfl
  | cons id rest ih =>
    cases found : catalog.records id with
    | none => simp [found, ih]
    | some record => simp [found, ih, keyed id record found]

omit [DecidableEq ι] in
/-- An entry finds the stored records among the ids in its set. -/
theorem mem_listed (keyed : catalog.Keyed) {name : IndexName} {value : IndexValue} {record : α} :
    record ∈ catalog.listed name value ↔ catalog.records (Record.id record) = some record ∧
      ∃ set, catalog.entries name value = some set ∧ Record.id record ∈ set := by
  rw [listed, List.mem_filterMap]
  constructor
  · rintro ⟨id, member, stored⟩
    obtain rfl := keyed id record stored
    cases found : catalog.entries name value with
    | none => simp [found, IdSet.empty] at member
    | some set =>
      rw [found, Option.getD_some] at member
      exact ⟨stored, set, rfl, member⟩
  · rintro ⟨stored, set, found, member⟩
    rw [found, Option.getD_some]
    exact ⟨Record.id record, member, stored⟩

theorem answer_stored (keyed : catalog.Keyed) (operation : Operation ι) {record : α}
    (found : record ∈ catalog.answer operation) :
    catalog.records (Record.id record) = some record := by
  induction operation with
  | byId id =>
    have stored : catalog.records id = some record := Option.mem_toList.mp found
    rw [keyed id record stored]
    exact stored
  | byField name value => exact (keyed.mem_listed.mp found).1
  | both left right ihLeft _ => exact ihLeft (List.mem_filter.mp found).1
  | either left right ihLeft ihRight =>
    rcases List.mem_append.mp (Collection.mem_of_mem_firstOfEach found) with here | here
    · exact ihLeft here
    · exact ihRight here

/-- A plan finds no two records of one id, whatever the entries of the indexes hold. -/
theorem answer_nodup (keyed : catalog.Keyed) (operation : Operation ι) :
    ((catalog.answer operation).map Record.id).Nodup := by
  induction operation with
  | byId id =>
    rw [answer]
    cases catalog.records id <;> simp
  | byField name value =>
    rw [answer, listed, keyed.filterMap_records]
    exact (IdSet.distinct _).sublist List.filter_sublist
  | both left right ihLeft _ => exact ihLeft.sublist (List.filter_sublist.map _)
  | either left right _ _ => exact (Collection.firstOfEach_nodup [] _).1

theorem answer_either (keyed : catalog.Keyed) (left right : Operation ι) :
    catalog.answer (.either left right) = catalog.answer left ++
      (catalog.answer right).filter fun record =>
        decide (Record.id record ∉ (catalog.answer left).map Record.id) :=
  Collection.union_eq_append (keyed.answer_nodup left) (keyed.answer_nodup right)

end Keyed

namespace Reflects

theorem keyed (reflects : Reflects fields changes catalog) : catalog.Keyed :=
  fun _ _ stored => (reflects.put_mem stored).2

theorem mem_listed (reflects : Reflects fields changes catalog) {field : IndexedField α}
    (declared : field ∈ fields) {value : IndexValue} {record : α} :
    record ∈ catalog.listed field.name value ↔
      catalog.records (Record.id record) = some record ∧ field.project record = .ok value := by
  rw [reflects.keyed.mem_listed, reflects.exists_listed_iff declared]
  constructor
  · rintro ⟨stored, other, same, projected⟩
    obtain rfl : other = record := Option.some.inj (same.symm.trans stored)
    exact ⟨stored, projected⟩
  · rintro ⟨stored, projected⟩
    exact ⟨stored, record, stored, projected⟩

omit [DecidableEq ι] in
private theorem onePerId_append {left right : List α} {former latter : α → Prop}
    (first : ∀ record, record ∈ left →
      catalog.records (Record.id record) = some record ∧ former record)
    (second : ∀ record, record ∈ right →
      catalog.records (Record.id record) = some record ∧ latter record) :
    Collection.OnePerId (left ++ right) := by
  apply onePerId
  intro record member
  rcases List.mem_append.mp member with here | here
  · exact (first record here).1
  · exact (second record here).1

/-- On any plan over declared indexes the answer lists each stored record the plan means once. The
values of the indexes are given by `valueOf`, which agrees with the projections of the fields. -/
theorem answer_exact (reflects : Reflects fields changes catalog)
    {valueOf : α → IndexName → Option IndexValue}
    (agrees : ∀ field ∈ fields, ∀ record value,
      field.project record = .ok value ↔ valueOf record field.name = some value)
    {operation : Operation ι}
    (declared : ∀ name ∈ operation.indexNames, name ∈ fields.map IndexedField.name) :
    ((catalog.answer operation).map Record.id).Nodup ∧
      ∀ record, record ∈ catalog.answer operation ↔
        catalog.records (Record.id record) = some record ∧
          operation.meets (Record.id record) (valueOf record) = true := by
  refine ⟨reflects.keyed.answer_nodup operation, ?_⟩
  induction operation with
  | byId id =>
    intro record
    rw [answer, Option.mem_toList, Operation.meets, decide_eq_true_iff]
    constructor
    · intro found
      have owner := (reflects.put_mem found).2
      exact ⟨by rw [owner]; exact found, owner⟩
    · intro given
      obtain ⟨found, owner⟩ := given
      rw [← owner]
      exact found
  | byField name value =>
    obtain ⟨field, here, rfl⟩ := List.mem_map.mp (declared name (by simp [Operation.indexNames]))
    intro record
    rw [answer, reflects.mem_listed here, Operation.meets, decide_eq_true_iff,
      agrees field here record value]
  | both left right ihLeft ihRight =>
    have exactLeft := ihLeft fun name named => declared name (by simp [Operation.indexNames, named])
    have exactRight := ihRight fun name named => declared name (by simp [Operation.indexNames, named])
    have single := onePerId_append (fun record => (exactLeft record).mp)
      fun record => (exactRight record).mp
    intro record
    rw [answer, Collection.mem_intersect single, exactLeft, exactRight, Operation.meets,
      Bool.and_eq_true]
    constructor
    · intro given
      obtain ⟨⟨stored, first⟩, _, second⟩ := given
      exact ⟨stored, first, second⟩
    · intro given
      obtain ⟨stored, first, second⟩ := given
      exact ⟨⟨stored, first⟩, stored, second⟩
  | either left right ihLeft ihRight =>
    have exactLeft := ihLeft fun name named => declared name (by simp [Operation.indexNames, named])
    have exactRight := ihRight fun name named => declared name (by simp [Operation.indexNames, named])
    have single := onePerId_append (fun record => (exactLeft record).mp)
      fun record => (exactRight record).mp
    intro record
    rw [answer, Collection.mem_union single, exactLeft, exactRight, Operation.meets, Bool.or_eq_true]
    exact and_or_left.symm

end Reflects

end Catalog

end DocStore
