import DocStore.Proofs.Database.Tables

namespace DocStore

/-- The action leaves what is seen of the world as it is, whether it succeeds or fails. -/
def Action.Fixes {ε σ α β : Type} (look : σ → β) (action : Action ε σ α) : Prop :=
  ∀ world, look (action world).2 = look world

namespace Action

variable {ε ε' σ α β γ : Type} {look : σ → γ} {action : Action ε σ α}

theorem Fixes.eq (fixes : action.Fixes look) {outcome : Except ε α} {world next : σ}
    (ended : action world = (outcome, next)) : look next = look world := by
  rw [← fixes world, ended]

theorem fixes_pure (value : α) : (pure value : Action ε σ α).Fixes look := fun _ => rfl

theorem fixes_throw (error : ε) : (throw error : Action ε σ α).Fixes look := fun _ => rfl

theorem fixes_ofExcept (outcome : Except ε α) : (ofExcept outcome : Action ε σ α).Fixes look :=
  fun _ => rfl

theorem Fixes.bind {rest : α → Action ε σ β} (fixes : action.Fixes look)
    (further : ∀ value, (rest value).Fixes look) : (action >>= rest).Fixes look := by
  intro world
  have same := fixes world
  rw [bind_apply]
  cases ended : action world with
  | mk outcome next =>
    rw [ended] at same
    cases outcome with
    | ok value => exact (further value next).trans same
    | error error => exact same

theorem Fixes.mapError {wrap : ε → ε'} (fixes : action.Fixes look) : (action.mapError wrap).Fixes look :=
  fixes

end Action

namespace Database

/-- The text in the row of a key; tables go by their folded names. -/
def textAt? (contents : Contents) (row : String × String) : Option String :=
  (contents.get? row.1).bind fun rows => rows.get? row.2

/-- The contents with a text in one row. -/
def setText (contents : Contents) (row : String × String) (text : String) : Contents :=
  contents.put row.1 (((contents.get? row.1).getD .empty).put row.2 text)

def clearText (contents : Contents) (row : String × String) : Contents :=
  contents.put row.1 (((contents.get? row.1).getD .empty).erase row.2)

/-- Both contents have the same tables. -/
def SameTables (before after : Contents) : Prop :=
  ∀ table, (after.get? table).isSome = (before.get? table).isSome

/-- Both contents have the same tables, and the same text in every row but some. -/
structure SameBut (before after : Contents) (touched : List (String × String)) : Prop where
  tables : SameTables before after
  rows : ∀ row, row ∉ touched → textAt? after row = textAt? before row

section

variable {before middle after contents : Contents} {touched further : List (String × String)}
  {row : String × String} {text : String}

theorem textAt?_put {rows : Rows} {held : Option String}
    (differ : ∀ key, rows.get? key =
      if key = row.2 then held else ((contents.get? row.1).getD .empty).get? key)
    (other : String × String) :
    textAt? (contents.put row.1 rows) other = if other = row then held else textAt? contents other := by
  simp only [textAt?, Table.get?_put, Prod.ext_iff]
  by_cases sameTable : other.1 = row.1
  · by_cases sameKey : other.2 = row.2
    · simp [sameTable, sameKey, differ]
    · cases found : contents.get? row.1 <;> simp [sameTable, sameKey, differ, found]
  · simp [sameTable]

theorem textAt?_setText (other : String × String) :
    textAt? (setText contents row text) other =
      if other = row then some text else textAt? contents other :=
  textAt?_put (fun _ => Table.get?_put) other

theorem textAt?_clearText (other : String × String) :
    textAt? (clearText contents row) other =
      if other = row then none else textAt? contents other :=
  textAt?_put (fun _ => Table.get?_erase) other

theorem sameTables_refl (contents : Contents) : SameTables contents contents := fun _ => rfl

theorem SameTables.symm (same : SameTables before after) : SameTables after before :=
  fun table => (same table).symm

theorem SameTables.trans (first : SameTables before middle) (second : SameTables middle after) :
    SameTables before after := fun table => (second table).trans (first table)

theorem SameTables.get?_eq_none (same : SameTables before after) {table : String}
    (absent : before.get? table = none) : after.get? table = none := by
  have there := same table
  rw [absent] at there
  simpa using there

theorem sameTables_put {rows : Rows} {table : String} (present : contents.get? table = some rows)
    (later : Rows) : SameTables contents (contents.put table later) := by
  intro other
  rw [Table.get?_put]
  split
  case isTrue same => rw [same, present]; rfl
  case isFalse => rfl

theorem sameBut_refl (contents : Contents) : SameBut contents contents [] :=
  ⟨fun _ => rfl, fun _ _ => rfl⟩

theorem SameBut.trans (first : SameBut before middle touched) (second : SameBut middle after further) :
    SameBut before after (touched ++ further) where
  tables := first.tables.trans second.tables
  rows row untouched := by
    rw [List.mem_append, not_or] at untouched
    exact (second.rows row untouched.2).trans (first.rows row untouched.1)

theorem sameBut_setText {rows : Rows} (present : contents.get? row.1 = some rows) (text : String) :
    SameBut contents (setText contents row text) [row] where
  tables := sameTables_put present _
  rows other untouched := by
    rw [textAt?_setText, if_neg (by simpa using untouched)]

theorem sameBut_clearText {rows : Rows} (present : contents.get? row.1 = some rows) :
    SameBut contents (clearText contents row) [row] where
  tables := sameTables_put present _
  rows other untouched := by
    rw [textAt?_clearText, if_neg (by simpa using untouched)]

end

variable {base next : Database} {tx : Nat} {table : String} {contents : Contents} {changed : Bool}
  {κ ν : Type} {keys : Codec κ} {values : Codec ν} {key : κ}

theorem written_eq_ok {codec : Codec ν} {value : ν} {text : String} {db : Database}
    (success : written codec value db = (.ok text, next)) :
    codec.encode value = .ok text ∧ next = db := by
  unfold written at success
  cases encoded : codec.encode value with
  | error reason => rw [encoded] at success; cases success
  | ok found => rw [encoded] at success; cases success; exact ⟨rfl, rfl⟩

theorem readable_eq_ok {codec : Codec ν} {value : ν} {text : String} {db : Database}
    (success : readable codec text db = (.ok value, next)) :
    codec.decode? text = some value ∧ next = db := by
  unfold readable at success
  cases decoded : codec.decode? text with
  | none => rw [decoded] at success; cases success
  | some found => rw [decoded] at success; cases success; exact ⟨rfl, rfl⟩

theorem select_writing_eq_ok {text : String} {found : Option String}
    (success : select table tx text (base.writing tx contents changed) = (.ok found, next)) :
    (∃ rows, contents.get? (foldName table) = some rows) ∧
      found = textAt? contents (foldName table, text) ∧ next = base.writing tx contents changed := by
  cases present : contents.get? (foldName table) with
  | none =>
    rw [select_missing opened_writing present] at success
    cases success
  | some rows =>
    rw [select_writing present] at success
    cases success
    exact ⟨⟨rows, rfl⟩, by simp [textAt?, present], rfl⟩

theorem modify_writing_eq_ok {α : Type} {change : Rows → α × Option Rows} {answer : α}
    (success : modify table tx change (base.writing tx contents changed) = (.ok answer, next)) :
    ∃ rows, contents.get? (foldName table) = some rows ∧ answer = (change rows).1 ∧
      next = match (change rows).2 with
        | none => base.writing tx contents changed
        | some later => base.writing tx (contents.put (foldName table) later) true := by
  cases present : contents.get? (foldName table) with
  | none =>
    rw [modify_missing opened_writing present] at success
    cases success
  | some rows =>
    rw [modify_writing present] at success
    cases success
    exact ⟨rows, rfl, rfl, rfl⟩

/-- Once a transaction has made a change, a row it writes is a change whether or not its text is new. -/
theorem upsert_writing_eq_ok {name text : String}
    (success : upsert table tx name text (base.writing tx contents true) = (.ok (), next)) :
    (∃ rows, contents.get? (foldName table) = some rows) ∧
      next = base.writing tx (setText contents (foldName table, name) text) true := by
  obtain ⟨rows, present, _, left⟩ := modify_writing_eq_ok success
  refine ⟨⟨rows, present⟩, ?_⟩
  simp only [setText, present, Option.getD_some]
  by_cases same : rows.get? name = some text
  · rw [if_pos same] at left
    rw [Table.put_of_get? same, Table.put_of_get? present]
    exact left
  · rw [if_neg same] at left
    exact left

theorem find_writing_eq_ok {found : Option ν}
    (success : find table keys values tx key (base.writing tx contents changed) = (.ok found, next)) :
    ∃ text, keys.encode key = .ok text ∧
      (textAt? contents (foldName table, text)).map values.decode? = found.map some ∧
      next = base.writing tx contents changed := by
  obtain ⟨text, _, writes, success⟩ := Action.bind_eq_ok success
  obtain ⟨named, rfl⟩ := written_eq_ok writes
  obtain ⟨row, _, selected, success⟩ := Action.bind_eq_ok success
  obtain ⟨_, rfl, rfl⟩ := select_writing_eq_ok selected
  refine ⟨text, named, ?_⟩
  cases held : textAt? contents (foldName table, text) with
  | none =>
    rw [held] at success
    cases success
    exact ⟨rfl, rfl⟩
  | some stored =>
    rw [held] at success
    obtain ⟨value, _, reading, made⟩ := Action.bind_eq_ok success
    obtain ⟨reads, rfl⟩ := readable_eq_ok reading
    cases made
    exact ⟨congrArg some reads, rfl⟩

/-- A value that was added has a new row. -/
theorem add_writing_eq_ok {value : ν}
    (success : add table keys values tx key value (base.writing tx contents changed) = (.ok true, next)) :
    ∃ name text rows, keys.encode key = .ok name ∧ values.encode value = .ok text ∧
      contents.get? (foldName table) = some rows ∧ textAt? contents (foldName table, name) = none ∧
      next = base.writing tx (setText contents (foldName table, name) text) true := by
  obtain ⟨name, _, writes, success⟩ := Action.bind_eq_ok success
  obtain ⟨named, rfl⟩ := written_eq_ok writes
  obtain ⟨text, _, writesValue, success⟩ := Action.bind_eq_ok success
  obtain ⟨encoded, rfl⟩ := written_eq_ok writesValue
  obtain ⟨rows, present, added, left⟩ := modify_writing_eq_ok success
  have free : rows.get? name = none := by
    cases taken : rows.contains name with
    | true => simp [taken] at added
    | false => simpa [Table.contains_eq_isSome] using taken
  have absent : rows.contains name = false := by simp [Table.contains_eq_isSome, free]
  refine ⟨name, text, rows, named, encoded, present, by simp [textAt?, present, free], ?_⟩
  simpa [absent, setText, present] using left

/-- A value that was removed had a row, whose text was read, and has none now. -/
theorem remove_writing_eq_ok {value : ν}
    (success : remove table keys values tx key (base.writing tx contents changed) =
      (.ok (some value), next)) :
    ∃ name text rows, keys.encode key = .ok name ∧ contents.get? (foldName table) = some rows ∧
      textAt? contents (foldName table, name) = some text ∧ values.decode? text = some value ∧
      next = base.writing tx (clearText contents (foldName table, name)) true := by
  obtain ⟨name, _, writes, success⟩ := Action.bind_eq_ok success
  obtain ⟨named, rfl⟩ := written_eq_ok writes
  obtain ⟨row, _, selected, success⟩ := Action.bind_eq_ok success
  obtain ⟨⟨rows, present⟩, rfl, rfl⟩ := select_writing_eq_ok selected
  cases held : textAt? contents (foldName table, name) with
  | none =>
    rw [held] at success
    cases success
  | some text =>
    rw [held] at success
    have taken : rows.contains name = true := by
      rw [Table.contains_eq_isSome]
      simpa [textAt?, present] using congrArg Option.isSome held
    obtain ⟨_, _, deleted, success⟩ := Action.bind_eq_ok success
    rw [delete_writing present taken] at deleted
    cases deleted
    obtain ⟨found, _, reading, made⟩ := Action.bind_eq_ok success
    obtain ⟨reads, rfl⟩ := readable_eq_ok reading
    cases made
    exact ⟨name, text, rows, named, present, held, reads, by simp [clearText, present]⟩

/-- A value that was stored or updated has a row, made from the one that was there. -/
theorem addOrUpdate_writing_eq_ok {first value : ν} {update : κ → ν → ν}
    (success : addOrUpdate table keys values tx key first update (base.writing tx contents true) =
      (.ok value, next)) :
    ∃ name text, ∃ current : Option ν, keys.encode key = .ok name ∧
      values.encode value = .ok text ∧ (∃ rows, contents.get? (foldName table) = some rows) ∧
      (textAt? contents (foldName table, name)).map values.decode? = current.map some ∧
      value = current.elim first (update key) ∧
      next = base.writing tx (setText contents (foldName table, name) text) true := by
  obtain ⟨current, _, found, success⟩ := Action.bind_eq_ok success
  obtain ⟨name, named, held, rfl⟩ := find_writing_eq_ok found
  obtain ⟨again, _, rewrites, success⟩ := Action.bind_eq_ok success
  obtain ⟨renamed, rfl⟩ := written_eq_ok rewrites
  obtain rfl : again = name := Except.ok.inj (renamed.symm.trans named)
  obtain ⟨text, _, writes, success⟩ := Action.bind_eq_ok success
  obtain ⟨encoded, rfl⟩ := written_eq_ok writes
  obtain ⟨_, _, stored, made⟩ := Action.bind_eq_ok success
  obtain ⟨present, rfl⟩ := upsert_writing_eq_ok stored
  cases made
  refine ⟨again, text, current, named, encoded, present, held, ?_, rfl⟩
  cases current <;> rfl

section

variable {db : Database}

theorem fixes_begin : begin.Fixes committed := by
  intro db
  rw [begin]
  split
  · rfl
  · rfl

theorem fixes_select (table : String) (tx : Nat) (text : String) :
    (select table tx text).Fixes committed := by
  intro db
  rw [select]
  split
  · rfl
  · dsimp only
    split <;> rfl

theorem fixes_modify {α : Type} (table : String) (tx : Nat) (change : Rows → α × Option Rows) :
    (modify table tx change).Fixes committed := by
  intro db
  rw [modify]
  split
  · rfl
  · dsimp only
    split
    · rfl
    · split
      · rfl
      · split <;> rfl

theorem fixes_abort (tx : Nat) : (abort tx).Fixes committed := by
  intro db
  rw [abort]
  split <;> rfl

/-- A transaction that holds the write lock starts from what is committed. -/
theorem begin_eq_ok (begun : begin db = (.ok tx, next)) :
    ∃ base : Database, next = base.writing tx db.committed.contents false := by
  cases locked : db.isLocked with
  | true =>
    rw [begin_locked locked] at begun
    cases begun
  | false =>
    rw [begin_unlocked locked] at begun
    cases begun
    exact ⟨_, rfl⟩

theorem commit_eq_error {error : StoreError} (failed : commit tx db = (.error error, next)) :
    next = db := by
  rw [commit] at failed
  split at failed
  · cases failed
    rfl
  · dsimp only at failed
    split at failed <;> cases failed

/-- A commit of changes publishes what its transaction saw. -/
theorem commit_writing_eq_ok (success : commit tx (base.writing tx contents true) = (.ok (), next)) :
    next.committed.contents = contents := by
  simp only [commit, opened_writing] at success
  cases success
  rfl

theorem fixes_written (codec : Codec ν) (value : ν) : (written codec value).Fixes committed :=
  Action.fixes_ofExcept _

theorem fixes_readable (codec : Codec ν) (text : String) : (readable codec text).Fixes committed := by
  unfold readable
  split
  · exact Action.fixes_pure _
  · exact Action.fixes_throw _

theorem fixes_find (table : String) (keys : Codec κ) (values : Codec ν) (tx : Nat) (key : κ) :
    (find table keys values tx key).Fixes committed := by
  refine (fixes_written keys key).bind fun text => (fixes_select table tx text).bind fun row => ?_
  cases row with
  | none => exact Action.fixes_pure _
  | some text => exact (fixes_readable values text).bind fun _ => Action.fixes_pure _

theorem fixes_add (table : String) (keys : Codec κ) (values : Codec ν) (tx : Nat) (key : κ) (value : ν) :
    (add table keys values tx key value).Fixes committed :=
  (fixes_written keys key).bind fun _ => (fixes_written values value).bind fun _ =>
    fixes_modify table tx _

theorem fixes_remove (table : String) (keys : Codec κ) (values : Codec ν) (tx : Nat) (key : κ) :
    (remove table keys values tx key).Fixes committed := by
  refine (fixes_written keys key).bind fun text => (fixes_select table tx text).bind fun row => ?_
  cases row with
  | none => exact Action.fixes_pure _
  | some held =>
    exact (fixes_modify table tx _).bind fun _ => (fixes_readable values held).bind fun _ =>
      Action.fixes_pure _

theorem fixes_addOrUpdate (table : String) (keys : Codec κ) (values : Codec ν) (tx : Nat) (key : κ)
    (first : ν) (update : κ → ν → ν) :
    (addOrUpdate table keys values tx key first update).Fixes committed :=
  (fixes_find table keys values tx key).bind fun _ => (fixes_written keys key).bind fun _ =>
    (fixes_written values _).bind fun _ => (fixes_modify table tx _).bind fun _ => Action.fixes_pure _

end

end Database

end DocStore
