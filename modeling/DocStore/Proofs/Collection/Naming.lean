import DocStore.Proofs.Collection.Plans

/-! Queries of one field. The field is looked up by its dotted name, so the answer comes from the index of
the declared path that is written the same. That is the path itself, unless a segment of one of the two
paths is empty or holds a dot. -/
namespace DocStore

variable {σ τ α ι : Type}

/-- The fields at some paths, whatever their segments. -/
def IndexedField.along [Record α ι] (paths : List Path) : List (IndexedField α) :=
  paths.map IndexedField.member

variable (α) in
theorem IndexedField.along_names [Record α ι] (paths : List Path) :
    (IndexedField.along paths : List (IndexedField α)).map IndexedField.name =
      paths.map Path.indexName := by
  rw [IndexedField.along, List.map_map]
  rfl

theorem IndexedField.mem_along_names [Record α ι] {paths : List Path} {name : IndexName} :
    name ∈ (IndexedField.along paths : List (IndexedField α)).map IndexedField.name ↔
      ∃ declared ∈ paths, declared.indexName = name := by
  rw [along_names, List.mem_map]

theorem Expr.StandsFor.path_unique {expr : Expr} {path other : Path}
    (stands : expr.StandsFor (.member path)) (same : expr.StandsFor (.member other)) :
    path = other := by
  rcases stands with rfl | rfl
  · rcases same with same | same <;> cases same
    rfl
  · rcases same with same | same <;> cases same
    rfl

namespace Collection

variable [Record α ι] [Identifier ι] {collection : Collection σ τ α ι} {scope : Scope}
  {left right : Expr} {path : Path} {value : Json} {reads : List Nat}

/-- An equality of a field other than the identifier is answered from the index of its name. -/
theorem plan_equality (stands : left.StandsFor (.member path)) (nonempty : path.segments ≠ [])
    (supplied : right.Supplies scope [] value reads)
    (field : path.isMember (Record.idMember α) = false) :
    collection.plan scope (.compare .equal left right) =
      .ok (.byField path.indexName (IndexValue.ofJson value)) :=
  plan_eq_ok_iff.mpr ⟨reads, .equality (Expr.memberPath_eq_ok_iff.mpr ⟨stands, nonempty⟩)
    (Expr.constant_eq_ok_iff.mpr supplied) (if_neg (by simp [field]))⟩

theorem nonempty_of_plan (stands : left.StandsFor (.member path)) {operation : Operation ι}
    (accepted : collection.plan scope (.compare .equal left right) = .ok operation) :
    path.segments ≠ [] := by
  obtain ⟨_, compiles⟩ := plan_eq_ok_iff.mp accepted
  cases compiles with
  | equality named _ _ =>
    obtain ⟨same, nonempty⟩ := Expr.memberPath_eq_ok_iff.mp named
    rwa [stands.path_unique same]

variable [DecidableEq ι]

theorem nonempty_of_find {world next : σ} {found : List α} (stands : left.StandsFor (.member path))
    (success : collection.find scope (.compare .equal left right) world = (.ok found, next)) :
    path.segments ≠ [] := by
  obtain ⟨operation, _, accepted, _⟩ := Action.bind_eq_ok success
  exact nonempty_of_plan stands (Action.ofExcept_eq_ok accepted).1

/-- In memory such a query finds what the index of its name lists, and fails if there is none. -/
theorem find_memory_equality {fields : List (IndexedField α)} {world : MemoryWorld α ι}
    (stands : left.StandsFor (.member path)) (nonempty : path.segments ≠ [])
    (supplied : right.Supplies scope [] value reads)
    (field : path.isMember (Record.idMember α) = false) :
    (memory fields).find scope (.compare .equal left right) world =
      if path.indexName ∈ fields.map IndexedField.name then
        (.ok (world.catalog.listed path.indexName (IndexValue.ofJson value)), world)
      else (.error (.unknownIndex path.indexName), world) := by
  rw [find, plan_equality stands nonempty supplied field,
    Action.bind_of_ok (Action.ofExcept_apply ..)]
  change (memory fields).searchByIndex path.indexName (IndexValue.ofJson value) world = _
  split
  case isTrue declared =>
    obtain ⟨_, found, rfl, _⟩ := (memory_reads world).search _ declared ⟨rfl, rfl⟩ (IndexValue.ofJson value)
    exact found
  case isFalse undeclared =>
    exact (memory_reads world).searchByIndex_undeclared undeclared (IndexValue.ofJson value)

theorem find_memory_equality_eq_ok_iff {fields : List (IndexedField α)} {world next : MemoryWorld α ι}
    {found : List α} (stands : left.StandsFor (.member path))
    (supplied : right.Supplies scope [] value reads)
    (field : path.isMember (Record.idMember α) = false) :
    (memory fields).find scope (.compare .equal left right) world = (.ok found, next) ↔
      path.segments ≠ [] ∧ path.indexName ∈ fields.map IndexedField.name ∧
        found = world.catalog.listed path.indexName (IndexValue.ofJson value) ∧ next = world := by
  constructor
  · intro success
    have nonempty := nonempty_of_find stands success
    rw [find_memory_equality stands nonempty supplied field] at success
    split at success
    case isTrue declared =>
      cases success
      exact ⟨nonempty, declared, rfl, rfl⟩
    case isFalse => cases success
  · rintro ⟨nonempty, declared, rfl, rfl⟩
    rw [find_memory_equality stands nonempty supplied field, if_pos declared]

/-- An equality of a field is answered after any session in memory if and only if a declared path is
written like the queried one when joined by dots. It is then answered from the index of that path alone,
with each current record whose member there has the value, once. The path is the queried one itself if that
is declared, or if no segment of the two is empty or holds a dot. -/
theorem inMemory_equality_exact (paths : List Path) (distinct : (paths.map Path.indexName).Nodup) :
    inMemory (IndexedField.along paths) (MemoryWorld.empty : MemoryWorld α ι) =
        (.ok (memory (IndexedField.along paths)), MemoryWorld.empty) ∧
      ∀ (steps : List (Step Unit α ι)) (history : History Unit α ι) (world : MemoryWorld α ι),
        (memory (IndexedField.along paths)).play steps .empty = (history, world) →
        ∀ scope left right path value reads, left.StandsFor (.member path) →
          right.Supplies scope [] value reads → path.isMember (Record.idMember α) = false →
          ((∃ found next, (memory (IndexedField.along paths)).find scope (.compare .equal left right)
              world = (.ok found, next)) ↔
            path.segments ≠ [] ∧ ∃ declared ∈ paths, declared.indexName = path.indexName) ∧
          ∀ found next,
            (memory (IndexedField.along paths)).find scope (.compare .equal left right) world =
              (.ok found, next) →
            next = world ∧ (found.map Record.id).Nodup ∧
              ∃ declared ∈ paths, declared.indexName = path.indexName ∧
                (memory (IndexedField.along paths) : Collection _ _ α ι).plan scope
                  (.compare .equal left right) =
                    .ok (.byField declared.indexName (IndexValue.ofJson value)) ∧
                (∀ record, record ∈ found ↔
                  Change.current? (Record.id record) history.changes = some record ∧
                    Record.valueAt? record declared = some (IndexValue.ofJson value)) ∧
                (path ∈ paths → declared = path) ∧
                (path.Plain → declared.Plain → declared = path) := by
  have apart := distinct
  rw [← IndexedField.along_names α paths] at distinct
  refine ⟨inMemory_eq distinct, ?_⟩
  intro steps history world played scope left right path value reads stands supplied field
  have reflects := memory_reflects distinct steps
  rw [played] at reflects
  simp only [find_memory_equality_eq_ok_iff stands supplied field, IndexedField.mem_along_names]
  constructor
  · constructor
    · rintro ⟨_, _, nonempty, declared, _⟩
      exact ⟨nonempty, declared⟩
    · rintro ⟨nonempty, declared⟩
      exact ⟨_, _, nonempty, declared, rfl, rfl⟩
  · rintro found next ⟨nonempty, ⟨declared, member, same⟩, rfl, rfl⟩
    have opened : IndexedField.member declared ∈ (IndexedField.along paths : List (IndexedField α)) :=
      List.mem_map_of_mem member
    refine ⟨rfl, reflects.keyed.answer_nodup (.byField path.indexName (IndexValue.ofJson value)),
      declared, member, same, ?_, ?_, ?_, ?_⟩
    · rw [same]
      exact plan_equality stands nonempty supplied field
    · intro record
      have listed : record ∈ next.catalog.listed (IndexedField.member declared).name
          (IndexValue.ofJson value) ↔ _ := reflects.mem_listed opened
      rw [IndexedField.project_member_iff, reflects.records] at listed
      rw [← same]
      exact listed
    · exact fun queried => List.inj_on_of_nodup_map apart member queried same
    · exact fun plain declaredPlain => declaredPlain.eq_of_indexName plain same

/-- A declared path whose segment holds a dot answers for itself. -/
theorem inMemory_equality_dottedSegment :
    ([⟨["a.b"]⟩].map Path.indexName).Nodup ∧
      ∃ found : List Numbered,
        (memory (IndexedField.along [⟨["a.b"]⟩])).find .empty (isOne ⟨["a.b"]⟩)
            ((memory (IndexedField.along [⟨["a.b"]⟩])).play [.alone (.put dottedRecord)] .empty).2 =
          (.ok found,
            ((memory (IndexedField.along [⟨["a.b"]⟩])).play [.alone (.put dottedRecord)] .empty).2) ∧
        dottedRecord ∈ found := by
  have distinct : ([⟨["a.b"]⟩].map Path.indexName).Nodup := by simp
  obtain ⟨answered, exact⟩ :=
    (inMemory_equality_exact (α := Numbered) [⟨["a.b"]⟩] distinct).2 [.alone (.put dottedRecord)] _ _ rfl
      .empty (.member ⟨["a.b"]⟩) (.literal (.number (.integer 1))) ⟨["a.b"]⟩ (.number (.integer 1)) []
      (.inl rfl) (.literal (.inl rfl)) (by decide +kernel)
  obtain ⟨found, next, success⟩ := answered.mpr ⟨by simp, ⟨["a.b"]⟩, by simp, rfl⟩
  obtain ⟨rfl, _, declared, _, _, _, listed, itself, _⟩ := exact found next success
  obtain rfl := itself (by simp)
  exact ⟨distinct, found, success, (listed dottedRecord).mpr (by decide +kernel)⟩

/-- A declared path whose segment holds a dot also answers for the path of its pieces: the record below is
found although its member `a` is missing. -/
theorem inMemory_equality_by_name :
    (⟨["a.b"]⟩ : Path) ≠ ⟨["a", "b"]⟩ ∧
      Path.isMember ⟨["a", "b"]⟩ (Record.idMember Numbered) = false ∧
      ((memory (IndexedField.along [⟨["a.b"]⟩])).find .empty (isOne ⟨["a", "b"]⟩)
        ((memory (IndexedField.along [⟨["a.b"]⟩])).play [.alone (.put dottedRecord)] .empty).2).1 =
          .ok [dottedRecord] ∧
      Record.valueAt? dottedRecord ⟨["a", "b"]⟩ ≠ some (IndexValue.ofJson (.number (.integer 1))) :=
  ⟨by decide +kernel, by decide +kernel, by decide +kernel, by decide +kernel⟩

end Collection

end DocStore
