import DocStore.Collection.InMemory
import DocStore.Proofs.Collection.Indexes
import DocStore.Proofs.Collection.Session

namespace DocStore

variable {α ι : Type} [DecidableEq ι]

namespace MemoryWorld

def setOf? (world : MemoryWorld α ι) (name : IndexName) (value : IndexValue) : Option (IdSet ι) :=
  ((indexPart name).get world).get? value

/-- What a world in memory holds, as functions. -/
def catalog (world : MemoryWorld α ι) : Catalog α ι := ⟨world.records.get?, world.setOf?⟩

theorem catalog_putRecord (world : MemoryWorld α ι) (id : ι) (record : α) :
    catalog { world with records := world.records.put id record } =
      world.catalog.setRecord id (some record) := by
  simp only [catalog, Catalog.setRecord]
  congr 1
  funext other
  exact Table.get?_put

theorem catalog_eraseRecord (world : MemoryWorld α ι) (id : ι) :
    catalog { world with records := world.records.erase id } = world.catalog.setRecord id none := by
  simp only [catalog, Catalog.setRecord]
  congr 1
  funext other
  exact Table.get?_erase

theorem catalog_putEntry (world : MemoryWorld α ι) (name : IndexName) (value : IndexValue)
    (set : IdSet ι) :
    catalog ((indexPart name).set (((indexPart name).get world).put value set) world) =
      world.catalog.setEntry name value set := by
  simp only [catalog, Catalog.setEntry, indexPart]
  congr 1
  funext otherName otherValue
  simp only [setOf?, indexPart]
  rw [Table.get?_put]
  by_cases same : otherName = name
  · subst same
    simp
  · simp [same]

end MemoryWorld

namespace Collection

def memoryIndex (name : IndexName) : LeafStore (MemoryWorld α ι) Unit IndexValue (IdSet ι) :=
  Memory.store (MemoryWorld.indexPart name)

def memory (fields : List (IndexedField α)) : Collection (MemoryWorld α ι) Unit α ι where
  transactions := Memory.transactions
  records := Memory.store MemoryWorld.recordPart
  indexes := ⟨fields.map fun field => (field.name, memoryIndex field.name)⟩
  fields
  lookups := .inTurn

variable {fields : List (IndexedField α)} {world : MemoryWorld α ι}

theorem inMemory_eq (distinct : (fields.map IndexedField.name).Nodup) :
    inMemory fields world = (.ok (memory fields), world) :=
  Action.bind_of_ok (Indexes.extend_pure memoryIndex world distinct)

theorem index_memory {name : IndexName} (declared : name ∈ fields.map IndexedField.name) :
    (memory fields : Collection _ _ α ι).index name = .ok (memoryIndex name) := by
  have found : (memory fields : Collection _ _ α ι).indexes.get? name = some (memoryIndex name) := by
    rw [memory, Indexes.get?_fields, if_pos declared]
  rw [index, found]

/-- Nothing is committed or taken back in memory: a change is made by its body. -/
theorem change_memory (body : Unit → QueryAction (MemoryWorld α ι) Bool) :
    (memory fields).change body world = body () world := by
  rw [change]
  refine (Action.bind_of_ok (Action.mapError_of_ok (Action.pure_apply _ _))).trans ?_
  cases made : body () world with
  | mk answer next =>
    rw [Action.bind_of_ok (Action.attempt_apply made)]
    cases answer with
    | error cause => rfl
    | ok done => cases done <;> rfl

variable [Record α ι]

theorem memory_writes : WritesCatalog (memory fields) () (fun _ => True)
    (fun (world : MemoryWorld α ι) catalog => world.catalog = catalog) where
  taken := by
    intro world _ record held equal _ stored
    subst equal
    refine ⟨world, ?_, rfl⟩
    have held : world.records.get? (Record.id record) = _ := stored
    have present : world.records.contains (Record.id record) = true := by
      rw [Table.contains_eq_isSome, held]
      rfl
    exact if_pos present
  free := by
    intro world _ record equal _ free
    subst equal
    refine ⟨_, if_neg ?_, MemoryWorld.catalog_putRecord world _ record⟩
    rw [Table.contains_iff]
    exact Table.get?_eq_none_iff.mp free
  remove := by
    intro world _ equal id
    subst equal
    exact ⟨_, rfl, MemoryWorld.catalog_eraseRecord world id⟩
  revise := by
    intro field declared
    refine ⟨_, index_memory (List.mem_map.mpr ⟨field, declared, rfl⟩), ?_⟩
    intro world _ equal value first update
    subst equal
    refine ⟨_, ?_, MemoryWorld.catalog_putEntry world field.name value _⟩
    simp only [memoryIndex, Memory.store, MemoryWorld.catalog, MemoryWorld.setOf?, Catalog.revised]
    cases ((MemoryWorld.indexPart field.name).get world).get? value with
    | none => rfl
    | some set => rfl

omit [Record α ι] in
private theorem fetch_memory (ids : List ι) :
    (memory fields).fetch () ids world = (.ok (ids.filterMap world.catalog.records), world) := by
  have finds : ∀ {next : MemoryWorld α ι}, next = world → ∀ id,
      ∃ after, (memory fields).records.find () id next = (.ok (world.catalog.records id), after) ∧
        after = world := by
    intro _ equal id
    subst equal
    exact ⟨_, rfl, rfl⟩
  obtain ⟨_, fetched, rfl⟩ := fetch_of_find finds ids rfl
  exact fetched

omit [Record α ι] in
/-- Lookups in memory read the catalog and leave the world as it is. -/
theorem memory_reads (world : MemoryWorld α ι) :
    ReadsCatalog (memory fields) fun next catalog => next = world ∧ world.catalog = catalog where
  indexed name := Indexes.isSome_get?_fields memoryIndex fields name
  getById := by
    intro _ _ given id
    obtain ⟨rfl, rfl⟩ := given
    exact ⟨_, Transactions.within_of_ok rfl rfl rfl, rfl, rfl⟩
  search := by
    intro name declared next _ given value
    obtain ⟨rfl, rfl⟩ := given
    refine ⟨next, ?_, rfl, rfl⟩
    have opened : (memory fields : Collection _ _ α ι).index name = .ok (memoryIndex name) :=
      index_memory declared
    rw [searchByIndex, opened, Action.bind_of_ok (Action.ofExcept_apply ..)]
    exact Transactions.within_of_ok rfl (fetch_memory _) rfl

omit [DecidableEq ι] [Record α ι] in
private theorem within_memory_keeps {ε β : Type} {wrap : StoreError → ε}
    {body : Unit → Action ε (MemoryWorld α ι) β} (keeps : (body ()).Keeps) :
    (Memory.transactions.within wrap (pure ()) body).Keeps := by
  intro world
  have begun : (pure () : StoreAction (MemoryWorld α ι) Unit) world = (.ok (), world) := rfl
  have same := keeps world
  cases ended : body () world with
  | mk outcome next =>
    rw [ended] at same
    cases outcome with
    | ok value =>
      have committed : Memory.transactions.commit () next = (.ok (), next) := rfl
      rw [Transactions.within_of_ok begun ended committed]
      exact same
    | error error =>
      rw [Transactions.within_of_error begun ended]
      exact same

omit [Record α ι] in
private theorem searchByIndex_memory_keeps (name : IndexName) (value : IndexValue) :
    ((memory fields : Collection _ _ α ι).searchByIndex name value).Keeps := by
  intro world
  by_cases declared : name ∈ fields.map IndexedField.name
  · obtain ⟨next, found, rfl, _⟩ := (memory_reads world).search name declared ⟨rfl, rfl⟩ value
    rw [found]
  · have missing : (memory fields : Collection _ _ α ι).index name = .error (.unknownIndex name) := by
      have absent : (memory fields : Collection _ _ α ι).indexes.get? name = none := by
        rw [memory, Indexes.get?_fields, if_neg declared]
      rw [index, absent]
    rw [searchByIndex, missing, Action.bind_of_error (Action.ofExcept_apply ..)]

private theorem run_memory_keeps (operation : Operation ι) :
    ((memory fields : Collection _ _ α ι).run operation).Keeps := by
  induction operation with
  | byId id =>
    refine Action.Keeps.bind ?_ fun _ => Action.keeps_pure _
    exact within_memory_keeps fun _ => rfl
  | byField name value =>
    exact searchByIndex_memory_keeps name value
  | both left right ihLeft ihRight =>
    exact ihLeft.bind fun _ => ihRight.bind fun _ => Action.keeps_pure _
  | either left right ihLeft ihRight =>
    exact ihLeft.bind fun _ => ihRight.bind fun _ => Action.keeps_pure _

variable [Identifier ι]

theorem find_memory_keeps (scope : Scope) (expr : Expr) :
    ((memory fields : Collection _ _ α ι).find scope expr).Keeps := by
  refine (Action.keeps_ofExcept _).bind fun operation => ?_
  exact run_memory_keeps operation

/-- After any session the catalog in memory reflects the changes made in it. -/
theorem memory_reflects (distinct : (fields.map IndexedField.name).Nodup)
    (steps : List (Step Unit α ι)) :
    ((memory fields).play steps .empty).2.catalog.Reflects fields
      ((memory fields).play steps .empty).1.changes := by
  refine play_invariant (fun _ => True)
    (fun history world => (MemoryWorld.catalog world).Reflects fields (History.changes history))
    Catalog.Reflects.empty ?_ fun _ _ => trivial
  intro step history world _ reflects
  cases step with
  | alone change =>
    obtain ⟨next, _, made, rfl, after⟩ := memory_writes.changeIn distinct reflects rfl change
      fun _ _ => trivial
    rw [perform, changeAlone_eq, change_memory, made]
    exact after
  | within _ change =>
    obtain ⟨next, _, made, rfl, after⟩ := memory_writes.changeIn distinct reflects rfl change
      fun _ _ => trivial
    rw [perform, made]
    exact after
  | begin => exact reflects
  | commit _ => exact reflects
  | abort _ => exact reflects
  | release _ => exact reflects
  | find scope expr =>
    have same : ((memory fields).find scope expr world).2 = world := find_memory_keeps scope expr world
    rw [perform]
    change ((memory fields).find scope expr world).2.catalog.Reflects fields _
    rw [same]
    exact reflects

/-- What a session in memory has left is found as if every record were looked at: a query that is
accepted, over declared indexes, finds each current record that satisfies it once and changes nothing.
Fields are looked at where their names lead, which is where they stand themselves unless a segment is
empty or holds a dot. -/
theorem inMemory_find_exact (paths : List String) (distinct : (paths.map IndexName.parse).Nodup) :
    inMemory (IndexedField.members paths) (MemoryWorld.empty : MemoryWorld α ι) =
        (.ok (memory (IndexedField.members paths)), MemoryWorld.empty) ∧
      ∀ (steps : List (Step Unit α ι)) (history : History Unit α ι) (world : MemoryWorld α ι),
        (memory (IndexedField.members paths)).play steps .empty = (history, world) →
        ∀ scope expr operation,
          (memory (IndexedField.members paths) : Collection (MemoryWorld α ι) Unit α ι).plan scope expr =
            .ok operation →
          (∀ path ∈ expr.fieldPaths (Record.idMember α),
            path.indexName ∈ paths.map IndexName.parse) →
          ∃ found,
            (memory (IndexedField.members paths)).find scope expr world = (.ok found, world) ∧
            (memory (IndexedField.members paths)).findOne scope expr world =
              (onlyRecord found, world) ∧
            (found.map Record.id).Nodup ∧
            (∀ record, record ∈ found ↔
              Change.current? (Record.id record) history.changes = some record ∧
                expr.holdsByName scope record = true) ∧
            ((∀ path ∈ expr.fieldPaths (Record.idMember α), path.Plain) →
              ∀ record, record ∈ found ↔
                Change.current? (Record.id record) history.changes = some record ∧
                  expr.holds scope record = true) := by
  rw [← IndexedField.members_names α] at distinct
  refine ⟨inMemory_eq distinct, ?_⟩
  intro steps history world played scope expr operation accepted declared
  have reflects := memory_reflects distinct steps
  rw [played] at reflects
  rw [← IndexedField.members_names α] at declared
  obtain ⟨found, next, success, ⟨rfl, _⟩, once, exact⟩ :=
    (memory_reads world).find_exact reflects IndexedField.members_agree ⟨rfl, rfl⟩ accepted declared
  have byName (record : α) : record ∈ found ↔
      Change.current? (Record.id record) history.changes = some record ∧
        expr.holdsByName scope record = true := by
    rw [exact record, reflects.records]
    rfl
  refine ⟨found, success, findOne_of_find success, once, byName, ?_⟩
  intro plain record
  rw [byName record, Expr.holdsByName_of_plain plain]

/-- Of two records that are added, one is removed again. -/
def removedAgain : List (Step Unit Numbered Int64) :=
  [.alone (.put nestedRecord), .alone (.put flaggedRecord), .alone (.drop 1)]

theorem inMemory_find_nestedRecord :
    (["a.b", "c"].map IndexName.parse).Nodup ∧
      ∃ found : List Numbered,
        (memory (IndexedField.members ["a.b", "c"])).find .empty (isOne (.parse "a.b"))
            ((memory (IndexedField.members ["a.b", "c"])).play removedAgain .empty).2 =
          (.ok found, ((memory (IndexedField.members ["a.b", "c"])).play removedAgain .empty).2) ∧
        nestedRecord ∉ found ∧ flaggedRecord ∈ found := by
  have distinct : (["a.b", "c"].map IndexName.parse).Nodup := by decide +kernel
  obtain ⟨found, success, _, _, exact, _⟩ :=
    (inMemory_find_exact ["a.b", "c"] distinct).2 removedAgain _ _ rfl .empty
      (isOne (.parse "a.b")) (.byField (.parse "a.b") (.text "1")) (by rfl) (by decide +kernel)
  refine ⟨distinct, found, success, ?_, ?_⟩
  · rw [exact nestedRecord]
    decide +kernel
  · rw [exact flaggedRecord]
    decide +kernel

/-- A path whose segment holds a dot shares its name with a declared index, and is answered from that
index: the record below is found although it has no member `a.b` at its top level. -/
theorem inMemory_find_by_name :
    (∃ operation : Operation Int64,
      (memory (IndexedField.members ["a.b"] : List (IndexedField Numbered))).plan .empty
        (isOne ⟨["a.b"]⟩) = .ok operation) ∧
      (∀ path ∈ (isOne ⟨["a.b"]⟩).fieldPaths (Record.idMember Numbered),
        path.indexName ∈ ["a.b"].map IndexName.parse) ∧
      ((memory (IndexedField.members ["a.b"])).find .empty (isOne ⟨["a.b"]⟩)
        ((memory (IndexedField.members ["a.b"])).play [.alone (.put nestedRecord)] .empty).2).1 =
          .ok [nestedRecord] ∧
      (isOne ⟨["a.b"]⟩).holds .empty nestedRecord = false :=
  ⟨⟨_, rfl⟩, by decide +kernel, by decide +kernel, by decide +kernel⟩

/-- After any session in memory each primary key has a record with that id; a value has an entry in an
index if and only if a record that projects to it was ever added, and the entry then lists exactly the
stored records that project to it. So each stored id is in one entry of every index, and no other id is
in any. -/
theorem inMemory_indexes_exact (fields : List (IndexedField α))
    (distinct : (fields.map IndexedField.name).Nodup) :
    inMemory fields (MemoryWorld.empty : MemoryWorld α ι) =
        (.ok (memory fields), MemoryWorld.empty) ∧
      ∀ (steps : List (Step Unit α ι)) (history : History Unit α ι) (world : MemoryWorld α ι),
        (memory fields).play steps .empty = (history, world) →
        (∀ id, world.records.get? id = Change.current? id history.changes) ∧
        (∀ id record, world.records.get? id = some record → Record.id record = id) ∧
        (∀ field ∈ fields, ∀ value,
          (world.setOf? field.name value = none ↔
            ∀ record, .put record ∈ history.changes → field.project record ≠ .ok value) ∧
          ∀ set, world.setOf? field.name value = some set → ∀ id,
            id ∈ set ↔ ∃ record, world.records.get? id = some record ∧
              field.project record = .ok value) ∧
        (∀ field ∈ fields, ∀ id, world.records.get? id ≠ none →
          ∃! value, ∃ set, world.setOf? field.name value = some set ∧ id ∈ set) ∧
        ∀ field ∈ fields, ∀ id, world.records.get? id = none →
          ∀ value set, world.setOf? field.name value = some set → id ∉ set := by
  refine ⟨inMemory_eq distinct, ?_⟩
  intro steps history world played
  have reflects := memory_reflects distinct steps
  rw [played] at reflects
  refine ⟨reflects.records, ?_, ?_, ?_, ?_⟩
  · intro id record stored
    exact (reflects.put_mem stored).2
  · intro field declared value
    exact ⟨reflects.entry_eq_none_iff declared, reflects.listed field declared value⟩
  · intro field declared id stored
    obtain ⟨record, found⟩ := Option.ne_none_iff_exists'.mp stored
    exact reflects.listed_once declared found
  · intro field declared id absent value set found member
    obtain ⟨record, stored, _⟩ := (reflects.listed field declared value set found id).mp member
    cases absent.symm.trans stored

theorem inMemory_indexes_nestedRecord :
    ((IndexedField.members ["a.b", "c"] : List (IndexedField Numbered)).map IndexedField.name).Nodup ∧
      (∃! value, ∃ set,
        ((memory (IndexedField.members ["a.b", "c"])).play removedAgain .empty).2.setOf?
          (.parse "c") value = some set ∧ (2 : Int64) ∈ set) ∧
      ∀ value set,
        ((memory (IndexedField.members ["a.b", "c"])).play removedAgain .empty).2.setOf?
          (.parse "a.b") value = some set → (1 : Int64) ∉ set := by
  have distinct :
      ((IndexedField.members ["a.b", "c"] : List (IndexedField Numbered)).map IndexedField.name).Nodup := by
    decide +kernel
  obtain ⟨_, _, _, once, never⟩ := (inMemory_indexes_exact _ distinct).2 removedAgain _ _ rfl
  refine ⟨distinct, ?_, ?_⟩
  · exact once (.member (.parse "c")) (by simp [IndexedField.members]) 2 (by decide +kernel)
  · exact never (.member (.parse "a.b")) (by simp [IndexedField.members]) 1 (by decide +kernel)

end Collection

end DocStore
