namespace DocStore

/-- A finite map as rows in order of arrival, each key once. -/
structure Table (κ ν : Type) where
  rows : List (κ × ν)
  distinct : (rows.map Prod.fst).Nodup

namespace Table

variable {κ ν : Type}

def empty : Table κ ν := ⟨[], by simp⟩

instance : EmptyCollection (Table κ ν) := ⟨empty⟩

instance : Inhabited (Table κ ν) := ⟨empty⟩

def keys (table : Table κ ν) : List κ := table.rows.map Prod.fst

def values (table : Table κ ν) : List ν := table.rows.map Prod.snd

def size (table : Table κ ν) : Nat := table.rows.length

def isEmpty (table : Table κ ν) : Bool := table.rows.isEmpty

variable [DecidableEq κ]

def get? (table : Table κ ν) (key : κ) : Option ν :=
  (table.rows.find? fun row => decide (row.1 = key)).map Prod.snd

def contains (table : Table κ ν) (key : κ) : Bool := decide (key ∈ table.keys)

/-- The row of a key with its value replaced; any other row as it is. -/
def replaceRow (key : κ) (value : ν) (row : κ × ν) : κ × ν :=
  if row.1 = key then (row.1, value) else row

theorem replaceRow_fst (key : κ) (value : ν) (row : κ × ν) :
    (replaceRow key value row).1 = row.1 := by
  unfold replaceRow; split <;> rfl

/-- Writes a value into the row of its key, or into a new last row. -/
def put (table : Table κ ν) (key : κ) (value : ν) : Table κ ν :=
  if present : key ∈ table.keys then
    ⟨table.rows.map (replaceRow key value), by
      have same : (table.rows.map (replaceRow key value)).map Prod.fst = table.rows.map Prod.fst := by
        simp [replaceRow_fst]
      rw [same]; exact table.distinct⟩
  else
    ⟨table.rows ++ [(key, value)], by
      rw [List.map_append]
      refine List.nodup_append.mpr ⟨table.distinct, by simp, ?_⟩
      intro a member b single same
      simp only [List.map_cons, List.map_nil, List.mem_singleton] at single
      subst single same
      exact present member⟩

def erase (table : Table κ ν) (key : κ) : Table κ ν :=
  ⟨table.rows.filter fun row => decide (row.1 ≠ key),
    table.distinct.sublist (List.filter_sublist.map _)⟩

omit [DecidableEq κ] in
theorem mem_keys {table : Table κ ν} {key : κ} :
    key ∈ table.keys ↔ ∃ value, (key, value) ∈ table.rows := by
  simp [keys]

private theorem find?_eq {rows : List (κ × ν)} (distinct : (rows.map Prod.fst).Nodup) {key : κ}
    {value : ν} : (rows.find? fun row => decide (row.1 = key)).map Prod.snd = some value ↔
      (key, value) ∈ rows := by
  induction rows with
  | nil => simp
  | cons row rest ih =>
    obtain ⟨key', value'⟩ := row
    simp only [List.map_cons, List.nodup_cons] at distinct
    by_cases same : key' = key
    · subst same
      have absent : (key', value) ∉ rest := fun member =>
        distinct.1 (List.mem_map.mpr ⟨_, member, rfl⟩)
      simp [absent, eq_comm]
    · simp [same, ih distinct.2, Ne.symm same]

theorem get?_eq_some_iff {table : Table κ ν} {key : κ} {value : ν} :
    table.get? key = some value ↔ (key, value) ∈ table.rows := find?_eq table.distinct

theorem get?_eq_none_iff {table : Table κ ν} {key : κ} :
    table.get? key = none ↔ key ∉ table.keys := by
  rw [mem_keys]
  constructor
  · intro none_found given
    obtain ⟨value, member⟩ := given
    simp [get?_eq_some_iff.mpr member] at none_found
  · intro absent
    cases found : table.get? key with
    | none => rfl
    | some value => exact absurd ⟨value, get?_eq_some_iff.mp found⟩ absent

theorem contains_iff {table : Table κ ν} {key : κ} :
    table.contains key = true ↔ key ∈ table.keys := by simp [contains]

theorem contains_eq_isSome (table : Table κ ν) (key : κ) :
    table.contains key = (table.get? key).isSome := by
  rw [Bool.eq_iff_iff, contains_iff, Option.isSome_iff_ne_none, ne_eq, get?_eq_none_iff, Decidable.not_not]

theorem mem_values {table : Table κ ν} {value : ν} :
    value ∈ table.values ↔ ∃ key, table.get? key = some value := by
  simp [values, get?_eq_some_iff]

theorem mem_keys_iff_isSome {table : Table κ ν} {key : κ} :
    key ∈ table.keys ↔ (table.get? key).isSome = true := by
  rw [← contains_eq_isSome, contains_iff]

theorem mem_keys_of_get? {table : Table κ ν} {key : κ} {value : ν}
    (found : table.get? key = some value) : key ∈ table.keys :=
  mem_keys.mpr ⟨value, get?_eq_some_iff.mp found⟩

@[simp] theorem get?_empty (key : κ) : (empty : Table κ ν).get? key = none := rfl

theorem mem_rows_put {table : Table κ ν} {key : κ} {value : ν} {row : κ × ν} :
    row ∈ (table.put key value).rows ↔ row = (key, value) ∨ (row ∈ table.rows ∧ row.1 ≠ key) := by
  unfold put
  split
  case isTrue present =>
    obtain ⟨old, member⟩ := mem_keys.mp present
    simp only [List.mem_map]
    constructor
    · intro given
      obtain ⟨source, here, rfl⟩ := given
      unfold replaceRow
      split
      case isTrue same => exact Or.inl (by rw [same])
      case isFalse different => exact Or.inr ⟨here, different⟩
    · intro given
      rcases given with rfl | ⟨here, different⟩
      · exact ⟨(key, old), member, by simp [replaceRow]⟩
      · exact ⟨row, here, by simp [replaceRow, different]⟩
  case isFalse absent =>
    simp only [List.mem_append, List.mem_singleton]
    constructor
    · intro given
      rcases given with here | rfl
      · refine Or.inr ⟨here, ?_⟩
        intro same
        exact absent (List.mem_map.mpr ⟨row, here, same⟩)
      · exact Or.inl rfl
    · intro given
      rcases given with rfl | ⟨here, _⟩
      · exact Or.inr rfl
      · exact Or.inl here

@[simp] theorem get?_put {table : Table κ ν} {key other : κ} {value : ν} :
    (table.put key value).get? other = if other = key then some value else table.get? other := by
  apply Option.ext
  intro found
  rw [get?_eq_some_iff, mem_rows_put]
  by_cases same : other = key
  · subst same
    simp [eq_comm]
  · simp [same, get?_eq_some_iff]

@[simp] theorem get?_erase {table : Table κ ν} {key other : κ} :
    (table.erase key).get? other = if other = key then none else table.get? other := by
  apply Option.ext
  intro found
  rw [get?_eq_some_iff]
  by_cases same : other = key
  · subst same
    simp [erase]
  · simp [erase, same, get?_eq_some_iff]

omit [DecidableEq κ] in
theorem rows_injective {table other : Table κ ν} (same : table.rows = other.rows) : table = other := by
  cases table
  cases other
  cases same
  rfl

theorem mem_keys_put {table : Table κ ν} {key other : κ} {value : ν} :
    other ∈ (table.put key value).keys ↔ other = key ∨ other ∈ table.keys := by
  simp only [mem_keys, mem_rows_put, Prod.mk.injEq]
  by_cases same : other = key
  · simp [same]
  · simp [same]

theorem mem_keys_erase {table : Table κ ν} {key other : κ} :
    other ∈ (table.erase key).keys ↔ other ∈ table.keys ∧ other ≠ key := by
  simp [mem_keys, erase]

theorem put_of_get? {table : Table κ ν} {key : κ} {value : ν} (found : table.get? key = some value) :
    table.put key value = table := by
  have here := get?_eq_some_iff.mp found
  have present : key ∈ table.keys := mem_keys.mpr ⟨value, here⟩
  apply rows_injective
  rw [put, dif_pos present]
  refine (List.map_congr_left ?_).trans (List.map_id _)
  intro given member
  obtain ⟨other, held⟩ := given
  rw [replaceRow]
  split
  case isTrue same =>
    obtain rfl : other = key := same
    obtain rfl : held = value :=
      Option.some.inj ((get?_eq_some_iff.mpr member).symm.trans found)
    rfl
  case isFalse => rfl

theorem put_put (table : Table κ ν) (key : κ) (first second : ν) :
    (table.put key first).put key second = table.put key second := by
  apply rows_injective
  have present : key ∈ (table.put key first).keys := mem_keys_put.mpr (.inl rfl)
  rw [put, dif_pos present]
  by_cases taken : key ∈ table.keys
  · rw [put, dif_pos taken, put, dif_pos taken]
    simp only [List.map_map]
    refine List.map_congr_left ?_
    intro row _
    by_cases same : row.1 = key <;> simp [replaceRow, same]
  · rw [put, dif_neg taken, put, dif_neg taken]
    simp only [List.map_append, List.map_cons, List.map_nil]
    congr 1
    · refine (List.map_congr_left ?_).trans (List.map_id _)
      intro row member
      have differs : row.1 ≠ key := fun same => taken (List.mem_map.mpr ⟨row, member, same⟩)
      simp [replaceRow, differs]
    · simp [replaceRow]

private theorem filter_absent {table : Table κ ν} {key : κ} (absent : key ∉ table.keys) :
    table.rows.filter (fun row => decide (row.1 ≠ key)) = table.rows := by
  apply List.filter_eq_self.mpr
  intro row member
  simpa using fun same => absent (List.mem_map.mpr ⟨row, member, same⟩)

theorem erase_of_absent {table : Table κ ν} {key : κ} (absent : key ∉ table.keys) :
    table.erase key = table :=
  rows_injective (filter_absent absent)

theorem erase_put {table : Table κ ν} {key : κ} (absent : key ∉ table.keys) (value : ν) :
    (table.put key value).erase key = table := by
  apply rows_injective
  rw [put, dif_neg absent]
  change (table.rows ++ [(key, value)]).filter (fun row => decide (row.1 ≠ key)) = table.rows
  rw [List.filter_append, filter_absent absent]
  simp

end Table

end DocStore
