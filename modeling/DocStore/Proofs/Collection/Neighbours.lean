import DocStore.Proofs.Collection.Apart
import DocStore.Proofs.Database.Coupled

namespace DocStore

open DocStore.Action (Couples couples_pure couples_ofExcept)
open Database (foldName Writers Readers Quiet AgreeOn Leaves writers_select readers_select)

/-- One use of a collection, in transactions of its own. -/
inductive Use (α ι : Type) where
  | change (change : Change α ι)
  | find (scope : Scope) (expr : Expr)
  | keys

inductive Seen (α ι : Type) where
  | changed (answer : Except QueryError Bool)
  | found (answer : Except QueryError (List α))
  | listed (answer : Except StoreError (List ι))

namespace Collection

variable {σ τ α β ι κ : Type} [DecidableEq ι] [Identifier ι] [Record α ι] [DecidableEq κ] [Identifier κ]
  [Record β κ]

def use (collection : Collection σ τ α ι) : Use α ι → σ → Seen α ι × σ
  | .change change, world => (collection.changeAlone change world).map .changed id
  | .find scope expr, world => (collection.find scope expr world).map .found id
  | .keys, world => (collection.records.keys world).map .listed id

def useEither (first : Collection σ τ α ι) (second : Collection σ τ β κ) :
    Use α ι ⊕ Use β κ → σ → (Seen α ι ⊕ Seen β κ) × σ
  | .inl use, world => (first.use use world).map .inl id
  | .inr use, world => (second.use use world).map .inr id

section

variable {name : String} {fields : List (IndexedField α)} {left right : Database} {tx ty : Nat}

omit [DecidableEq ι] [Identifier ι] [Record α ι] in
theorem name_mem_tables : foldName name ∈ tables name fields := List.mem_cons_self ..

omit [DecidableEq ι] [Identifier ι] [Record α ι] in
theorem indexTable_mem_tables {index : IndexName} (declared : index ∈ fields.map IndexedField.name) :
    foldName (indexTable name index) ∈ tables name fields := by
  obtain ⟨field, member, rfl⟩ := List.mem_map.mp declared
  exact List.mem_cons_of_mem _ (List.mem_map_of_mem member)

/-- What is done with the store of an index is done with one of the tables of the collection. -/
private theorem couples_index {Related : Database → Database → Prop} {γ : Type} (index : IndexName)
    {act other : LeafStore Database Nat IndexValue (IdSet ι) → QueryAction Database γ}
    (couples : foldName (indexTable name index) ∈ tables name fields →
      Couples Related (act (indexStore name index)) (other (indexStore name index))) :
    Couples Related
      (do
        let store ← Action.ofExcept ((stored name fields : Collection _ _ α ι).index index)
        act store)
      (do
        let store ← Action.ofExcept ((stored name fields : Collection _ _ α ι).index index)
        other store) := by
  intro first second related
  cases found : (stored name fields : Collection _ _ α ι).index index with
  | error cause => exact ⟨rfl, related⟩
  | ok store =>
    obtain ⟨declared, rfl⟩ := index_stored_eq_ok found
    exact couples (indexTable_mem_tables declared) first second related

private theorem writers_reviseIndex (first : IdSet ι) (update : IdSet ι → IdSet ι)
    (entry : IndexName × IndexValue) :
    Couples (Writers (tables name fields) left right tx ty)
      ((stored name fields : Collection _ _ α ι).reviseIndex tx first update entry)
      ((stored name fields : Collection _ _ α ι).reviseIndex ty first update entry) := by
  rw [reviseIndex, reviseIndex]
  refine couples_index entry.1 fun inside => ?_
  have updated : Couples (Writers (tables name fields) left right tx ty)
      ((indexStore name entry.1).addOrUpdate tx entry.2 first fun _ set => update set)
      ((indexStore name entry.1).addOrUpdate ty entry.2 first fun _ set => update set) :=
    Database.writers_addOrUpdate Codec.indexValue Codec.idSet inside entry.2 first
      fun _ set => update set
  exact updated.mapError.bind fun _ => couples_pure ()

omit [DecidableEq ι] [Identifier ι] [Record α ι] in
private theorem couples_forEntries {Related : Database → Database → Prop}
    {act other : IndexName × IndexValue → QueryAction Database Unit}
    (couples : ∀ entry, Couples Related (act entry) (other entry))
    (entries : List (IndexName × IndexValue)) :
    Couples Related (forEntries act entries) (forEntries other entries) := by
  induction entries with
  | nil => exact couples_pure ()
  | cons entry rest ih => exact (couples entry).bind fun _ => ih

theorem writers_changeIn (change : Change α ι) :
    Couples (Writers (tables name fields) left right tx ty)
      ((stored name fields).changeIn tx change) ((stored name fields).changeIn ty change) := by
  cases change with
  | put record =>
    refine (couples_ofExcept _).bind fun entries => ?_
    refine (Database.writers_add Codec.identifier Codec.record name_mem_tables _
      record).mapError.bind fun added => ?_
    cases added with
    | true =>
      exact (couples_forEntries (writers_reviseIndex _ _) entries).bind fun _ => couples_pure true
    | false => exact couples_pure false
  | drop id =>
    refine (Database.writers_remove Codec.identifier Codec.record name_mem_tables
      id).mapError.bind fun removed => ?_
    cases removed with
    | some record =>
      refine (couples_ofExcept _).bind fun entries => ?_
      exact (couples_forEntries (writers_reviseIndex _ _) entries).bind fun _ => couples_pure true
    | none => exact couples_pure false

/-- What a change in a transaction of its own leaves committed. -/
def settled (outcome : Except QueryError Bool) (before after : Contents) : Contents :=
  match outcome with
  | .ok true => after
  | _ => before

/-- A change whose body keeps to its transaction ends it, and publishes what it has written if it was
made. -/
theorem change_of_writing (name : String) (fields : List (IndexedField α)) {db : Database}
    (body : Nat → QueryAction Database Bool) {outcome : Except QueryError Bool} {contents : Contents}
    {changed : Bool}
    (free : db.isLocked = false) (bounded : db.Bounded)
    (ended : body db.next ({ db with next := db.next + 1 }.writing db.next db.committed.contents false) =
      (outcome, { db with next := db.next + 1 }.writing db.next contents changed))
    (unchanged : changed = false → contents = db.committed.contents) :
    ∃ version, (stored name fields : Collection _ _ α ι).change body db =
      (outcome, { db with
        committed := ⟨settled outcome db.committed.contents contents, version⟩
        next := db.next + 1 }) := by
  have fresh : db.next ∉ { db with next := db.next + 1 }.opened.keys := fun present =>
    Nat.lt_irrefl _ (bounded db.next present)
  have begun : (stored name fields : Collection _ _ α ι).begin db = (.ok db.next,
      { db with next := db.next + 1 }.writing db.next db.committed.contents false) :=
    Action.mapError_of_ok (Database.begin_unlocked free)
  rcases outcome with error | _ | _
  · refine ⟨db.committed.version, (change_failed begun ended).trans (congrArg (Prod.mk _) ?_)⟩
    exact Database.release_writing fresh contents changed
  · exact ⟨db.committed.version, change_unmade begun ended (Database.abort_writing fresh)⟩
  · cases changed with
    | true => exact ⟨_, change_made begun ended (Database.commit_writing fresh)⟩
    | false =>
      obtain rfl := unchanged rfl
      exact ⟨db.committed.version, change_made begun ended (Database.commit_writing fresh)⟩

theorem quiet_change (name : String) (fields : List (IndexedField α)) (boundedLeft : left.Bounded)
    (boundedRight : right.Bounded) (locked : left.isLocked = right.isLocked) (change : Change α ι) :
    Couples (Quiet (tables name fields) left right) ((stored name fields).changeAlone change)
      ((stored name fields).changeAlone change) := by
  rw [changeAlone_eq]
  intro first second quiet
  have same : first.isLocked = second.isLocked :=
    quiet.left.isLocked.trans (locked.trans quiet.right.isLocked.symm)
  cases free : first.isLocked with
  | true =>
    rw [change_unbegun (Database.begin_locked free),
      change_unbegun (Database.begin_locked (same.symm.trans free))]
    exact ⟨rfl, quiet⟩
  | false =>
    have begun : Writers (tables name fields) { first with next := first.next + 1 }
        { second with next := second.next + 1 } first.next second.next
        ({ first with next := first.next + 1 }.writing first.next first.committed.contents false)
        ({ second with next := second.next + 1 }.writing second.next second.committed.contents false) :=
      ⟨_, false, _, false, rfl, rfl, quiet.same, ⟨Database.agreeOn_refl _, fun _ => rfl⟩,
        ⟨Database.agreeOn_refl _, fun _ => rfl⟩⟩
    obtain ⟨outcome, _, _, ended, endedToo, contents, changed, others, altered, rfl, rfl, agree, sees,
      seesToo⟩ := (writers_changeIn change).ends begun
    let body (tx : Nat) : QueryAction Database Bool :=
      (stored name fields : Collection _ _ α ι).changeIn tx change
    obtain ⟨version, done⟩ := change_of_writing name fields body free (quiet.left.bounded boundedLeft) ended
      sees.unchanged
    obtain ⟨versionToo, doneToo⟩ := change_of_writing name fields body (same.symm.trans free)
      (quiet.right.bounded boundedRight) endedToo seesToo.unchanged
    rw [done, doneToo]
    refine ⟨rfl, ?_⟩
    rcases outcome with error | _ | _
    · exact ⟨quiet.same, quiet.left.next _, quiet.right.next _⟩
    · exact ⟨quiet.same, quiet.left.next _, quiet.right.next _⟩
    · exact ⟨agree,
        quiet.left.trans ⟨sees.outside, rfl, Nat.le_succ _⟩,
        quiet.right.trans ⟨seesToo.outside, rfl, Nat.le_succ _⟩⟩

private theorem couples_fetch {Related : Database → Database → Prop}
    (alike : Database.SelectsAlike (tables name fields) Related tx ty) (ids : List ι) :
    Couples Related ((stored name fields : Collection _ _ α ι).fetch tx ids)
      ((stored name fields : Collection _ _ α ι).fetch ty ids) := by
  induction ids with
  | nil => exact couples_pure []
  | cons id rest ih =>
    refine (alike.find Codec.identifier Codec.record name_mem_tables id).mapError.bind fun _ => ?_
    exact ih.bind fun _ => couples_pure _

section

variable (boundedLeft : left.Bounded) (boundedRight : right.Bounded)

include boundedLeft boundedRight

private theorem quiet_getById (id : ι) :
    Couples (Quiet (tables name fields) left right)
      ((stored name fields : Collection _ _ α ι).getById id)
      ((stored name fields : Collection _ _ α ι).getById id) :=
  Database.quiet_within boundedLeft boundedRight fun agree =>
    ((readers_select agree).find Codec.identifier Codec.record name_mem_tables id).mapError

private theorem quiet_searchByIndex (index : IndexName) (value : IndexValue) :
    Couples (Quiet (tables name fields) left right)
      ((stored name fields : Collection _ _ α ι).searchByIndex index value)
      ((stored name fields : Collection _ _ α ι).searchByIndex index value) := by
  rw [searchByIndex]
  refine couples_index index fun inside => ?_
  refine Database.quiet_within boundedLeft boundedRight fun agree => ?_
  refine ((readers_select agree).find Codec.indexValue Codec.idSet inside value).mapError.bind
    fun entry => ?_
  exact couples_fetch (readers_select agree) _

theorem quiet_run (operation : Operation ι) :
    Couples (Quiet (tables name fields) left right) ((stored name fields).run operation)
      ((stored name fields : Collection _ _ α ι).run operation) := by
  induction operation with
  | byId id => exact (quiet_getById boundedLeft boundedRight id).bind fun _ => couples_pure _
  | byField index value => exact quiet_searchByIndex boundedLeft boundedRight index value
  | both first second ihFirst ihSecond =>
    exact ihFirst.bind fun _ => ihSecond.bind fun _ => couples_pure _
  | either first second ihFirst ihSecond =>
    exact ihFirst.bind fun _ => ihSecond.bind fun _ => couples_pure _

theorem quiet_find (name : String) (fields : List (IndexedField α)) (scope : Scope) (expr : Expr) :
    Couples (Quiet (tables name fields) left right) ((stored name fields).find scope expr)
      ((stored name fields : Collection _ _ α ι).find scope expr) := by
  refine (couples_ofExcept _).bind fun operation => ?_
  cases missing : (stored name fields : Collection _ _ α ι).missingIndex? operation with
  | some index =>
    have refused : (stored name fields : Collection _ _ α ι).execute operation =
        throw (.unknownIndex index) := by
      rw [execute, missing]
      rfl
    rw [refused]
    exact Action.couples_throw _
  | none =>
    have accepted : (stored name fields : Collection _ _ α ι).execute operation =
        (stored name fields).run operation := by
      rw [execute, missing]
      rfl
    rw [accepted]
    exact quiet_run boundedLeft boundedRight operation

end

/-- Two quiet databases that hold the same in some tables and can, or cannot, be written alike. -/
structure Alike (tables : List String) (first second : Database) : Prop where
  same : AgreeOn (· ∈ tables) first.committed.contents second.committed.contents
  locked : first.isLocked = second.isLocked
  left : first.Bounded
  right : second.Bounded

variable {first second later : Database}

omit [DecidableEq ι] [Identifier ι] [Record α ι] in
/-- What happens in other tables of one of the databases does not count. -/
theorem Alike.elsewhere {among others : List String} (alike : Alike among first second)
    (leaves : Leaves others first later) (apart : ∀ table ∈ among, table ∉ others) :
    Alike among later second where
  same table inside := (leaves.outside table (apart table inside)).trans (alike.same table inside)
  locked := leaves.isLocked.trans alike.locked
  left := leaves.bounded alike.left
  right := alike.right

omit [DecidableEq ι] [Identifier ι] [Record α ι] in
private theorem Alike.act {among : List String} {ε γ : Type} {act : Action ε Database γ}
    (alike : Alike among first second) (couples : Couples (Quiet among first second) act act)
    (wrap : Except ε γ → Seen α ι) :
    ((act first).map wrap id).1 = ((act second).map wrap id).1 ∧
      Alike among (act first).2 (act second).2 ∧ Leaves among first (act first).2 := by
  obtain ⟨same, quiet⟩ := couples first second
    ⟨alike.same, Leaves.refl among first, Leaves.refl among second⟩
  refine ⟨congrArg wrap same, ⟨quiet.same, ?_, ?_, ?_⟩, quiet.left⟩
  · exact quiet.left.isLocked.trans (alike.locked.trans quiet.right.isLocked.symm)
  · exact quiet.left.bounded alike.left
  · exact quiet.right.bounded alike.right

/-- A use of a collection comes to the same in databases that are alike in its tables, leaves them so, and
leaves all other tables as they were. -/
theorem Alike.use (alike : Alike (tables name fields) first second) (use : Use α ι) :
    ((stored name fields).use use first).1 = ((stored name fields).use use second).1 ∧
      Alike (tables name fields) ((stored name fields).use use first).2
        ((stored name fields).use use second).2 ∧
      Leaves (tables name fields) first ((stored name fields).use use first).2 := by
  cases use with
  | change change =>
    exact alike.act (quiet_change name fields alike.left alike.right alike.locked change) .changed
  | find scope expr => exact alike.act (quiet_find alike.left alike.right name fields scope expr) .found
  | keys =>
    exact alike.act (Database.quiet_keys Codec.identifier (Codec.record : Codec α) name_mem_tables)
      .listed

theorem Alike.beside {among : List String} (alike : Alike among first second)
    (apart : ∀ table ∈ among, table ∉ tables name fields) (use : Use α ι) :
    Alike among ((stored name fields).use use first).2 second :=
  have self : Alike (tables name fields) first first :=
    ⟨Database.agreeOn_refl _, rfl, alike.left, alike.left⟩
  alike.elsewhere (self.use use).2.2 apart

end

/-- Of a series in which some items concern one party, that party sees what it would see in the series of
these items alone, if the other ones do not change what it sees. -/
theorem series_alone {γ γ' ο ο' : Type} {act : γ → σ → ο × σ} {own : γ' → σ → ο' × σ}
    {pick : γ → Option γ'} {keep : ο → Option ο'} {Related : σ → σ → Prop}
    (ours : ∀ {item mine world alone}, pick item = some mine → Related world alone →
      keep (act item world).1 = some (own mine alone).1 ∧
        Related (act item world).2 (own mine alone).2)
    (theirs : ∀ {item world alone}, pick item = none → Related world alone →
      keep (act item world).1 = none ∧ Related (act item world).2 alone)
    (items : List γ) {world alone : σ} (related : Related world alone) :
    (series act items world).1.filterMap keep = (series own (items.filterMap pick) alone).1 := by
  induction items generalizing world alone with
  | nil => rfl
  | cons item rest ih =>
    have acted : act item world = ((act item world).1, (act item world).2) := rfl
    rw [series_cons acted]
    cases picked : pick item with
    | none =>
      obtain ⟨unkept, later⟩ := theirs picked related
      rw [List.filterMap_cons_none unkept, List.filterMap_cons_none picked]
      exact ih later
    | some mine =>
      obtain ⟨kept, later⟩ := ours picked related
      have alone_acted : own mine alone = ((own mine alone).1, (own mine alone).2) := rfl
      rw [List.filterMap_cons_some kept, List.filterMap_cons_some picked, series_cons alone_acted]
      exact congrArg (_ :: ·) (ih later)

section

variable {name other : String} {fields : List (IndexedField α)} {others : List (IndexedField β)}

/-- Neither name goes on after the other one with an underscore, and they differ; the case of letters does
not count. -/
def NamesApart (name other : String) : Prop :=
  foldName name ≠ foldName other ∧
    ¬ (foldName name ++ "_").toList <+: (foldName other).toList ∧
    ¬ (foldName other ++ "_").toList <+: (foldName name).toList

private theorem prefix_indexTable (name : String) (index : IndexName) :
    (foldName name ++ "_").toList <+: (foldName (indexTable name index)).toList := by
  rw [foldName_indexTable, String.toList_append (s := foldName name ++ "_")]
  exact List.prefix_append _ _

private theorem prefix_underscore {text further : String}
    (here : (text ++ "_").toList <+: (further ++ "_").toList) :
    text = further ∨ (text ++ "_").toList <+: further.toList := by
  have split (given : String) : (given ++ "_").toList = given.toList ++ ['_'] := String.toList_append
  rw [split further, List.prefix_concat_iff, split text] at here
  rcases here with same | shorter
  · exact .inl (String.toList_injective (List.append_cancel_right same))
  · rw [split text]
    exact .inr shorter

omit [DecidableEq ι] [Identifier ι] [Record α ι] [DecidableEq κ] [Identifier κ] [Record β κ] in
theorem tables_disjoint_of_namesApart (apart : NamesApart name other) :
    ∀ table ∈ tables name fields, table ∉ tables other others := by
  obtain ⟨differ, first, second⟩ := apart
  intro table here there
  rcases List.mem_cons.mp here with rfl | here
  · rcases List.mem_cons.mp there with same | there
    · exact differ same
    · obtain ⟨field, _, same⟩ := List.mem_map.mp there
      exact second (same ▸ prefix_indexTable other field.name)
  · obtain ⟨field, _, rfl⟩ := List.mem_map.mp here
    have mine := prefix_indexTable name field.name
    rcases List.mem_cons.mp there with same | there
    · exact first (same ▸ mine)
    · obtain ⟨further, _, same⟩ := List.mem_map.mp there
      have theirs : _ <+: (foldName (indexTable name field.name)).toList :=
        same ▸ prefix_indexTable other further.name
      rcases List.prefix_or_prefix_of_prefix mine theirs with shorter | shorter
      · rcases prefix_underscore shorter with same | beneath
        · exact differ same
        · exact first beneath
      · rcases prefix_underscore shorter with same | beneath
        · exact differ same.symm
        · exact second beneath

/-- Where a name goes on after an underscore, the rest can be the name of an index. -/
private theorem exists_indexTable (α : Type) {name other : String}
    (here : (foldName name ++ "_").toList <+: (foldName other).toList) :
    ∃ field : IndexedField α, foldName (indexTable name field.name) = foldName other := by
  obtain ⟨rest, split⟩ := here
  rw [Database.foldName_toList other] at split
  obtain ⟨_, text, _, _, rfl⟩ := List.append_eq_map_iff.mp split
  have named : (Path.mk [String.ofList text]).indexName = ⟨String.ofList text⟩ := by
    simp [Path.indexName, Path.dotted]
  refine ⟨.computed ⟨[String.ofList text]⟩ fun _ => .null, String.toList_injective ?_⟩
  rw [foldName_indexTable, String.toList_append, Database.foldName_toList other, ← split,
    IndexedField.name, IndexedField.computed, named, Database.foldName_toList]
  simp

omit [DecidableEq ι] [Identifier ι] [Record α ι] [DecidableEq κ] [Identifier κ] [Record β κ] in
/-- Just these names keep the tables of two collections apart whatever their indexes are. -/
theorem tables_disjoint_iff :
    (∀ (fields : List (IndexedField α)) (others : List (IndexedField β)),
      ∀ table ∈ tables name fields, table ∉ tables other others) ↔ NamesApart name other := by
  constructor
  · intro disjoint
    refine ⟨?_, ?_, ?_⟩
    · intro same
      exact disjoint [] [] _ (List.mem_cons_self ..) (same ▸ List.mem_cons_self ..)
    · intro beneath
      obtain ⟨field, same⟩ := exists_indexTable α beneath
      exact disjoint [field] [] (foldName other) (by simp [tables, same]) (List.mem_cons_self ..)
    · intro beneath
      obtain ⟨field, same⟩ := exists_indexTable β beneath
      exact disjoint [] [field] (foldName name) (List.mem_cons_self ..) (by simp [tables, same])
  · intro apart fields others
    exact tables_disjoint_of_namesApart apart

end

section

variable {name : String} {fields : List (IndexedField α)} {opened indexes : Indexes Database Nat ι}

private theorem fixes_openTable (table : String) :
    (Database.openTable table).Fixes fun db => (db.opened, db.next) := by
  intro db
  rw [Database.openTable]
  split
  · rfl
  · split
    · rfl
    · split
      · rfl
      · split <;> rfl

omit [Record α ι] in
private theorem fixes_extend (opened : Indexes Database Nat ι) (fields : List (IndexedField α)) :
    (Indexes.extend (fun index => do
        (Database.openTable (indexTable name index)).mapError .ofDatabase
        pure (indexStore name index)) opened fields).Fixes fun db => (db.opened, db.next) := by
  induction fields generalizing opened with
  | nil => exact Action.fixes_pure _
  | cons field rest ih =>
    rw [Indexes.extend]
    split
    · exact Action.fixes_throw _
    · refine Action.Fixes.bind ?_ fun store => ih _
      exact ((fixes_openTable _).mapError.bind fun _ => Action.fixes_pure _).mapError

theorem fixes_openStored (name : String) (fields : List (IndexedField α)) :
    (openStored name fields : Action _ _ (Collection Database Nat α ι)).Fixes
      fun db => (db.opened, db.next) := by
  refine (fixes_openTable name).mapError.bind fun _ => ?_
  exact ((fixes_extend .empty fields).bind fun _ => Action.fixes_pure _).mapError

theorem openStored_bounded {start ready : Database} {collection : Collection Database Nat α ι}
    (bounded : start.Bounded) (success : openStored name fields start = (.ok collection, ready)) :
    ready.Bounded := by
  obtain ⟨opened, next⟩ := Prod.mk.inj ((fixes_openStored name fields).eq success)
  rw [Database.Bounded, opened, next]
  exact bounded

end

/-- Two collections that could be opened in one database, used in any order. Their tables differ whatever
their indexes are if neither name goes on after the other with an underscore. And as long as their tables
differ, everything each of them answers is what it would answer if the other one were not used at all. -/
theorem openStored_collections_apart (name other : String) (fields : List (IndexedField α))
    (others : List (IndexedField β)) {start middle ready : Database} (bounded : start.Bounded)
    {first : Collection Database Nat α ι} {second : Collection Database Nat β κ}
    (opened : openStored name fields start = (.ok first, middle))
    (openedToo : openStored other others middle = (.ok second, ready)) :
    (NamesApart name other → ∀ table ∈ tables name fields, table ∉ tables other others) ∧
      ((∀ table ∈ tables name fields, table ∉ tables other others) →
        ∀ uses : List (Use α ι ⊕ Use β κ),
          (series (useEither first second) uses ready).1.filterMap Sum.getLeft? =
              (series first.use (uses.filterMap Sum.getLeft?) ready).1 ∧
            (series (useEither first second) uses ready).1.filterMap Sum.getRight? =
              (series second.use (uses.filterMap Sum.getRight?) ready).1) := by
  have ready_bounded := openStored_bounded (openStored_bounded bounded opened) openedToo
  obtain rfl := openStored_eq_ok opened
  obtain rfl := openStored_eq_ok openedToo
  refine ⟨tables_disjoint_of_namesApart, fun apart uses => ⟨?_, ?_⟩⟩
  · have alike : Alike (tables name fields) ready ready :=
      ⟨Database.agreeOn_refl _, rfl, ready_bounded, ready_bounded⟩
    refine series_alone ?_ ?_ uses alike
    · rintro (use | use) mine world alone picked alike
      · cases picked
        exact ⟨congrArg some (alike.use use).1, (alike.use use).2.1⟩
      · cases picked
    · rintro (use | use) world alone picked alike
      · cases picked
      · exact ⟨rfl, alike.beside apart use⟩
  · have alike : Alike (tables other others) ready ready :=
      ⟨Database.agreeOn_refl _, rfl, ready_bounded, ready_bounded⟩
    refine series_alone ?_ ?_ uses alike
    · rintro (use | use) mine world alone picked alike
      · cases picked
      · cases picked
        exact ⟨congrArg some (alike.use use).1, (alike.use use).2.1⟩
    · rintro (use | use) world alone picked alike
      · exact ⟨rfl, alike.beside (fun table there here => apart table here there) use⟩
      · cases picked

/-- A collection with an index called `items`. -/
def orders : Collection Database Nat Document String := stored "orders" (IndexedField.members ["items"])

/-- A collection whose records are in the table of that index. -/
def orderItems : Collection Database Nat Document String := stored "orders_items" []

/-- Two collections whose names neither go on after each other. -/
theorem openStored_collections_apart_places :
    Database.empty.Bounded ∧
      ∃ middle ready, openStored "places" (IndexedField.members ["a.b", "c"]) .empty =
          (.ok places, middle) ∧
        openStored "orders" (IndexedField.members ["items"]) middle = (.ok orders, ready) ∧
        (∀ table ∈ tables "places" places.fields, table ∉ tables "orders" orders.fields) ∧
        ∀ record document,
          (series (useEither places orders)
            [.inl (.change (.put record)), .inr (.change (.put document)), .inl .keys] ready).1.filterMap
              Sum.getLeft? =
            (series places.use [.change (.put record), .keys] ready).1 := by
  have bounded : Database.empty.Bounded := nofun
  have opened : openStored "places" (IndexedField.members ["a.b", "c"]) .empty = (.ok places, _) :=
    openStored_of_isOk Database.unused_empty (by decide +kernel)
  have openedToo : openStored "orders" (IndexedField.members ["items"]) _ = (.ok orders, _) :=
    openStored_of_isOk (openStored_unused Database.unused_empty opened).2.1 (by decide +kernel)
  obtain ⟨disjoint, alone⟩ := openStored_collections_apart "places" "orders" _ _ bounded opened openedToo
  have apart := disjoint ⟨by decide +kernel, by decide +kernel, by decide +kernel⟩
  exact ⟨bounded, _, _, opened, openedToo, apart, fun record document => (alone apart _).1⟩

/-- The name of a collection can be that of the table of another one's index. A record that is inserted there
is found to be there already when the other collection lists a record under a value that is its id. -/
theorem openStored_collections_meet :
    ∃ middle ready, openStored "orders" (IndexedField.members ["items"]) .empty = (.ok orders, middle) ∧
      openStored "orders_items" [] middle = (.ok orderItems, ready) ∧
      foldName "orders" ≠ foldName "orders_items" ∧
      (orderItems.insert ⟨"x", []⟩ ready).1 = .ok true ∧
      (orderItems.insert ⟨"x", []⟩ (orders.insert ⟨"1", [("items", .string "x")]⟩ ready).2).1 =
        .ok false := by
  have opened : openStored "orders" (IndexedField.members ["items"]) .empty = (.ok orders, _) :=
    openStored_of_isOk Database.unused_empty (by decide +kernel)
  have openedToo : openStored "orders_items" [] _ = (.ok orderItems, _) :=
    openStored_of_isOk (openStored_unused Database.unused_empty opened).2.1 (by decide +kernel)
  refine ⟨_, _, opened, openedToo, ?_, ?_, ?_⟩
  · decide +kernel
  · decide +kernel
  · decide +kernel

end Collection

end DocStore
