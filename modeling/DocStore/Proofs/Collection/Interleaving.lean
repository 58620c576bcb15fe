import DocStore.Proofs.Catalog.Extent
import DocStore.Proofs.Collection.Memory
import DocStore.Proofs.Collection.Turns

/-! Changes of different ids that take turns in memory. Each has its outlook: an answer and the effects it
will have on its own id, which depend on nothing that the others do. So whatever the turns, they come to
what they come to one after another. -/
namespace DocStore

variable {α ι : Type}

/-- The entries that are still to be updated belong to fields of a collection. -/
def Stage.Declared (fields : List (IndexedField α)) (stage : Stage) : Prop :=
  ∀ entries, stage = .listing entries → ∀ entry ∈ entries, entry.1 ∈ fields.map IndexedField.name

def Change.effect : Change α ι → IndexName × IndexValue → Effect α
  | .put _ => .list
  | .drop _ => .strike

namespace Collection

variable {σ τ : Type}

section

variable [Record α ι]

/-- What a change comes to from some stage on, as its answer and its effects; `held` is the record of its
id while it waits. -/
def outlook (collection : Collection σ τ α ι) (held : Option α) :
    Change α ι → Stage → Except QueryError Bool × List (Effect α)
  | .put record, .waiting =>
    match collection.project record, held with
    | .error error, _ => (.error error, [])
    | .ok _, some _ => (.ok false, [])
    | .ok entries, none => (.ok true, .keep (some record) :: entries.map .list)
  | .drop _, .waiting =>
    match held with
    | none => (.ok false, [])
    | some record =>
      match collection.project record with
      | .error error => (.error error, [.keep none])
      | .ok entries => (.ok true, .keep none :: entries.map .strike)
  | change, .listing entries => (.ok true, entries.map change.effect)
  | _, .ended answer => (answer, [])

omit [Record α ι] in
theorem outlook_of_answered {collection : Collection σ τ α ι} {held : Option α} {change : Change α ι}
    {stage : Stage} {answer : Except QueryError Bool} (answered : stage.answer? = some answer) :
    collection.outlook held change stage = (answer, []) := by
  cases stage with
  | waiting => cases answered
  | listing entries =>
    cases entries with
    | nil => cases answered; cases change <;> rfl
    | cons => cases answered
  | ended => cases answered; cases change <;> rfl

/-- The answers that some changes come to, given the records they started from. -/
def answersAhead (collection : Collection σ τ α ι) (records : ι → Option α)
    (ongoing : List (Ongoing α ι)) : List (Change α ι × Except QueryError Bool) :=
  ongoing.map fun task =>
    (task.change, (collection.outlook (records task.change.target) task.change task.stage).1)

variable [DecidableEq ι]

def extentAhead (collection : Collection σ τ α ι) (records : ι → Option α)
    (ongoing : List (Ongoing α ι)) (extent : Extent α ι) : Extent α ι :=
  ongoing.foldl
    (fun extent task => extent.afterAll task.change.target
      (collection.outlook (records task.change.target) task.change task.stage).2)
    extent

variable {collection : Collection σ τ α ι} {records others : ι → Option α}
  {ongoing : List (Ongoing α ι)}

theorem extentAhead_cons (task : Ongoing α ι) (later : List (Ongoing α ι)) (extent : Extent α ι) :
    collection.extentAhead records (task :: later) extent =
      collection.extentAhead records later (extent.afterAll task.change.target
        (collection.outlook (records task.change.target) task.change task.stage).2) := rfl

omit [DecidableEq ι] in
theorem answersAhead_congr (collection : Collection σ τ α ι)
    (same : ∀ task ∈ ongoing, records task.change.target = others task.change.target) :
    collection.answersAhead records ongoing = collection.answersAhead others ongoing := by
  refine List.map_congr_left fun task member => ?_
  rw [same task member]

theorem extentAhead_congr
    (same : ∀ task ∈ ongoing, records task.change.target = others task.change.target)
    (extent : Extent α ι) :
    collection.extentAhead records ongoing extent = collection.extentAhead others ongoing extent := by
  refine List.foldl_ext _ _ _ fun extent task member => ?_
  rw [same task member]

omit [DecidableEq ι] in
theorem answersAhead_of_answered (answered : ∀ task ∈ ongoing, task.stage.answer? ≠ none) :
    (ongoing.map fun task => (task.change, task.stage.answer?)) =
      (collection.answersAhead records ongoing).map fun entry => (entry.1, some entry.2) := by
  rw [answersAhead, List.map_map]
  refine List.map_congr_left fun task member => ?_
  obtain ⟨answer, found⟩ := Option.ne_none_iff_exists'.mp (answered task member)
  simp [outlook_of_answered found, found]

theorem extentAhead_of_answered (answered : ∀ task ∈ ongoing, task.stage.answer? ≠ none)
    (extent : Extent α ι) : collection.extentAhead records ongoing extent = extent := by
  induction ongoing generalizing extent with
  | nil => rfl
  | cons task later ih =>
    obtain ⟨answer, found⟩ := Option.ne_none_iff_exists'.mp (answered task List.mem_cons_self)
    rw [extentAhead_cons, outlook_of_answered found]
    exact ih (fun task member => answered task (List.mem_cons_of_mem _ member)) extent

/-- What other ids are to come to can as well be done after the effects of an id. -/
theorem extentAhead_afterAll {id : ι} (differ : ∀ task ∈ ongoing, id ≠ task.change.target)
    (effects : List (Effect α)) (extent : Extent α ι) :
    collection.extentAhead records ongoing (extent.afterAll id effects) =
      (collection.extentAhead records ongoing extent).afterAll id effects := by
  induction ongoing generalizing extent with
  | nil => rfl
  | cons task later ih =>
    have further := ih (fun task member => differ task (List.mem_cons_of_mem _ member))
    rw [extentAhead_cons, extentAhead_cons, Extent.afterAll_comm (differ task List.mem_cons_self),
      further]

theorem extentAhead_append (earlier later : List (Ongoing α ι)) (extent : Extent α ι) :
    collection.extentAhead records (earlier ++ later) extent =
      collection.extentAhead records later (collection.extentAhead records earlier extent) :=
  List.foldl_append

end

section

variable [DecidableEq ι] [Record α ι] {fields : List (IndexedField α)}

/-- The next call of a change has the first effects of its outlook and leaves the rest of it. -/
structure Advanced (fields : List (IndexedField α)) (change : Change α ι) (stage : Stage)
    (world : MemoryWorld α ι) (next : Stage) (after : MemoryWorld α ι) (effects : List (Effect α)) :
    Prop where
  declared : next.Declared fields
  extent : after.catalog.extent = world.catalog.extent.afterAll change.target effects
  outlook : (memory fields).outlook (world.catalog.records change.target) change stage =
    (((memory fields).outlook (after.catalog.records change.target) change next).1,
      effects ++ ((memory fields).outlook (after.catalog.records change.target) change next).2)

/-- A change that goes on by itself comes to its outlook. -/
def Finished (fields : List (IndexedField α)) (change : Change α ι) (stage : Stage)
    (world : MemoryWorld α ι) : Prop :=
  ∃ next, (memory fields).finish () change stage world =
      (((memory fields).outlook (world.catalog.records change.target) change stage).1, next) ∧
    next.catalog.extent = world.catalog.extent.afterAll change.target
      ((memory fields).outlook (world.catalog.records change.target) change stage).2

theorem changeEntry_memory (world : MemoryWorld α ι) (change : Change α ι)
    {entry : IndexName × IndexValue} (declared : entry.1 ∈ fields.map IndexedField.name) :
    ∃ next, (memory fields).changeEntry () change entry world = (.ok (), next) ∧
      next.catalog.extent = world.catalog.extent.after change.target (change.effect entry) := by
  cases change with
  | put record =>
    obtain ⟨next, success, shown⟩ := memory_writes.revise_entry (Eq.refl world.catalog) declared
      (.single (Record.id record)) fun set => set.insert (Record.id record)
    exact ⟨next, success, by rw [shown]; exact Catalog.extent_list ..⟩
  | drop id =>
    obtain ⟨next, success, shown⟩ := memory_writes.revise_entry (Eq.refl world.catalog) declared
      .empty fun set => set.erase id
    exact ⟨next, success, by rw [shown]; exact Catalog.extent_strike ..⟩

omit [Record α ι] in
theorem declared_afterRecord {record : α} {entries : List (IndexName × IndexValue)}
    (projected : (memory fields : Collection _ _ α ι).project record = .ok entries) :
    (Stage.afterRecord (.ok (some entries))).Declared fields := by
  rintro _ ⟨⟩
  exact (project_eq_ok_iff.mp projected).declared

theorem changeRecord_memory (fields : List (IndexedField α)) (world : MemoryWorld α ι)
    (change : Change α ι) :
    ∃ outcome after effects, (memory fields).changeRecord () change world = (outcome, after) ∧
      Advanced fields change .waiting world (.afterRecord outcome) after effects := by
  have writes : WritesCatalog (memory fields) () _ _ := memory_writes
  cases change with
  | put record =>
    rcases projected : (memory fields : Collection _ _ α ι).project record with error | entries
    · refine ⟨.error error, world, [], ?_, ?_, rfl, ?_⟩
      · rw [changeRecord, projected, Action.bind_of_error (Action.ofExcept_apply ..)]
      · rintro _ ⟨⟩
      · simp [outlook, projected, Stage.afterRecord]
    cases stored : world.catalog.records (Record.id record) with
    | some held =>
      obtain ⟨next, added, shown⟩ := writes.taken (Eq.refl world.catalog) trivial stored
      refine ⟨.ok none, next, [], ?_, ?_, ?_, ?_⟩
      · rw [changeRecord, projected, Action.bind_of_ok (Action.ofExcept_apply ..),
          Action.bind_of_ok (Action.mapError_of_ok added)]
        rfl
      · rintro _ ⟨⟩
      · rw [shown]; rfl
      · simp [outlook, projected, Stage.afterRecord, Change.target, stored]
    | none =>
      obtain ⟨next, added, shown⟩ := writes.free (Eq.refl world.catalog) trivial stored
      refine ⟨.ok (some entries), next, [.keep (some record)], ?_, declared_afterRecord projected, ?_, ?_⟩
      · rw [changeRecord, projected, Action.bind_of_ok (Action.ofExcept_apply ..),
          Action.bind_of_ok (Action.mapError_of_ok added)]
        rfl
      · rw [shown]; exact Catalog.extent_setRecord ..
      · simp [outlook, projected, Stage.afterRecord, Change.target, Change.effect, stored]
  | drop id =>
    obtain ⟨next, removed, shown⟩ := writes.remove (Eq.refl world.catalog) id
    cases stored : world.catalog.records id with
    | none =>
      rw [stored] at removed
      refine ⟨.ok none, next, [], ?_, ?_, ?_, ?_⟩
      · rw [changeRecord, Action.bind_of_ok (Action.mapError_of_ok removed)]
        rfl
      · rintro _ ⟨⟩
      · rw [shown, Catalog.setRecord_of_none stored]; rfl
      · simp [outlook, Stage.afterRecord, Change.target, stored]
    | some record =>
      rw [stored] at removed
      rcases projected : (memory fields : Collection _ _ α ι).project record with error | entries
      · refine ⟨.error error, next, [.keep none], ?_, ?_, ?_, ?_⟩
        · rw [changeRecord, Action.bind_of_ok (Action.mapError_of_ok removed)]
          dsimp only
          rw [projected, Action.bind_of_error (Action.ofExcept_apply ..)]
        · rintro _ ⟨⟩
        · rw [shown]; exact Catalog.extent_setRecord ..
        · simp [outlook, projected, Stage.afterRecord, Change.target, stored]
      · refine ⟨.ok (some entries), next, [.keep none], ?_, declared_afterRecord projected, ?_, ?_⟩
        · rw [changeRecord, Action.bind_of_ok (Action.mapError_of_ok removed)]
          dsimp only
          rw [projected, Action.bind_of_ok (Action.ofExcept_apply ..)]
          rfl
        · rw [shown]; exact Catalog.extent_setRecord ..
        · simp [outlook, projected, Stage.afterRecord, Change.target, Change.effect, stored]

/-- Every call in memory keeps to the outlook. -/
theorem advance_memory (world : MemoryWorld α ι) (change : Change α ι) {stage : Stage}
    (declared : stage.Declared fields) :
    ∃ effects, Advanced fields change stage world ((memory fields).advance () change stage world).1
      ((memory fields).advance () change stage world).2 effects := by
  cases stage with
  | waiting =>
    obtain ⟨outcome, after, effects, made, advanced⟩ := changeRecord_memory fields world change
    rw [advance, made]
    exact ⟨effects, advanced⟩
  | listing entries =>
    cases entries with
    | nil => exact ⟨[], declared, rfl, rfl⟩
    | cons entry later =>
      obtain ⟨next, made, extent⟩ :=
        changeEntry_memory world change (declared _ rfl entry List.mem_cons_self)
      rw [advance, made]
      refine ⟨[change.effect entry], ?_, extent, by cases change <;> rfl⟩
      rintro _ ⟨⟩ other member
      exact declared _ rfl other (List.mem_cons_of_mem _ member)
  | ended answer => exact ⟨[], declared, rfl, by cases change <;> rfl⟩

theorem Advanced.finish {change : Change α ι} {stage next : Stage} {world after : MemoryWorld α ι}
    {effects : List (Effect α)} (advanced : Advanced fields change stage world next after effects)
    (moved : (memory fields).advance () change stage world = (next, after))
    (finished : Finished fields change next after) : Finished fields change stage world := by
  obtain ⟨final, ended, extent⟩ := finished
  refine ⟨final, ?_, ?_⟩
  · rw [finish_advance, moved, ended, advanced.outlook]
  · rw [extent, advanced.extent, advanced.outlook, Extent.afterAll_append]

theorem finish_listing (change : Change α ι) {entries : List (IndexName × IndexValue)}
    (declared : (Stage.listing entries).Declared fields) (world : MemoryWorld α ι) :
    Finished fields change (.listing entries) world := by
  induction entries generalizing world with
  | nil => exact ⟨world, by cases change <;> rfl, by cases change <;> rfl⟩
  | cons entry later ih =>
    obtain ⟨effects, advanced⟩ := advance_memory world change declared
    obtain ⟨next, made, _⟩ :=
      changeEntry_memory world change (declared _ rfl entry List.mem_cons_self)
    have moved : (memory fields).advance () change (.listing (entry :: later)) world =
        (.listing later, next) := by rw [advance, made]; rfl
    rw [moved] at advanced
    exact advanced.finish moved (ih advanced.declared next)

theorem finish_memory (fields : List (IndexedField α)) (world : MemoryWorld α ι) (change : Change α ι) :
    Finished fields change .waiting world := by
  obtain ⟨outcome, after, effects, made, advanced⟩ := changeRecord_memory fields world change
  refine advanced.finish (by rw [advance, made]; rfl) ?_
  rcases outcome with error | _ | entries
  · exact ⟨after, by cases change <;> rfl, by cases change <;> rfl⟩
  · exact ⟨after, by cases change <;> rfl, by cases change <;> rfl⟩
  · exact finish_listing change advanced.declared after

/-- Some changes that take turns come to certain answers and to a certain extent. -/
structure ComesTo (fields : List (IndexedField α))
    (answers : List (Change α ι × Except QueryError Bool)) (extent : Extent α ι)
    (ongoing : List (Ongoing α ι)) (world : MemoryWorld α ι) : Prop where
  declared : ∀ task ∈ ongoing, task.stage.Declared fields
  answers : (memory fields).answersAhead world.catalog.records ongoing = answers
  extent : (memory fields).extentAhead world.catalog.records ongoing world.catalog.extent = extent

variable {answers : List (Change α ι × Except QueryError Bool)} {extent : Extent α ι}
  {ongoing : List (Ongoing α ι)} {world : MemoryWorld α ι}

/-- Whoever has the next turn, what the changes come to stays the same. -/
theorem ComesTo.advanced {before later : List (Ongoing α ι)} {change : Change α ι} {stage next : Stage}
    {after : MemoryWorld α ι} {effects : List (Effect α)}
    (comesTo : ComesTo fields answers extent (before ++ ⟨change, stage⟩ :: later) world)
    (distinct : (answers.map fun entry => entry.1.target).Nodup)
    (advanced : Advanced fields change stage world next after effects) :
    ComesTo fields answers extent (before ++ ⟨change, next⟩ :: later) after := by
  obtain ⟨declared, rfl, rfl⟩ := comesTo
  -- No other change is about the same id, so the effects touch nothing that the others depend on.
  have others : ∀ task ∈ before ++ later, change.target ≠ task.change.target := by
    simp only [answersAhead, List.map_map, List.map_append, List.map_cons, List.nodup_middle,
      List.nodup_cons] at distinct
    intro task member same
    refine distinct.1 ?_
    rw [← List.map_append]
    exact List.mem_map.mpr ⟨task, member, same.symm⟩
  have kept : ∀ task ∈ before ++ later, world.catalog.records task.change.target =
      after.catalog.records task.change.target := by
    intro task member
    have records := congrFun (congrArg Extent.records advanced.extent) task.change.target
    rw [Extent.afterAll_records (others task member).symm] at records
    exact records.symm
  have keptBefore := fun task member => kept task (List.mem_append_left later member)
  have keptLater := fun task member => kept task (List.mem_append_right before member)
  have othersBefore := fun task member => others task (List.mem_append_left later member)
  constructor
  case declared =>
    intro task member
    rcases List.mem_append.mp member with earlier | further
    · exact declared task (List.mem_append_left _ earlier)
    rcases List.mem_cons.mp further with rfl | last
    · exact advanced.declared
    · exact declared task (List.mem_append_right _ (List.mem_cons_of_mem _ last))
  case answers =>
    have earlier := answersAhead_congr (memory fields) keptBefore
    have further := answersAhead_congr (memory fields) keptLater
    simp only [answersAhead, List.map_append, List.map_cons] at earlier further ⊢
    rw [earlier, further, advanced.outlook]
  case extent =>
    rw [extentAhead_append, extentAhead_append, extentAhead_cons, extentAhead_cons,
      extentAhead_congr keptBefore, extentAhead_congr keptLater, advanced.outlook, advanced.extent,
      extentAhead_afterAll othersBefore, Extent.afterAll_append]

theorem ComesTo.turn (comesTo : ComesTo fields answers extent ongoing world)
    (distinct : (answers.map fun entry => entry.1.target).Nodup) (position : Nat) :
    ComesTo fields answers extent ((memory fields).turn position (ongoing, world)).1
      ((memory fields).turn position (ongoing, world)).2 := by
  rw [Collection.turn]
  cases found : ongoing[position]? with
  | none => exact comesTo
  | some task =>
    obtain ⟨change, stage⟩ := task
    obtain ⟨bound, here⟩ := List.getElem?_eq_some_iff.mp found
    have parts (task : Ongoing α ι) : ongoing.set position task =
        ongoing.take position ++ task :: ongoing.drop (position + 1) := by
      rw [List.set_eq_take_append_cons_drop, if_pos bound]
    have whole := parts ⟨change, stage⟩
    rw [← here, List.set_getElem_self, here] at whole
    rw [whole] at comesTo
    obtain ⟨effects, advanced⟩ :=
      advance_memory world change (comesTo.declared ⟨change, stage⟩ (by simp))
    simp only [parts]
    exact comesTo.advanced distinct advanced

/-- Changes of different ids that all wait come to what they come to one after another. -/
theorem changeEach_memory (fields : List (IndexedField α)) {changes : List (Change α ι)}
    (distinct : (changes.map Change.target).Nodup) (world : MemoryWorld α ι) :
    ∃ final, (memory fields).changeEach changes world =
        ((memory fields).answersAhead world.catalog.records (changes.map Change.start), final) ∧
      final.catalog.extent = (memory fields).extentAhead world.catalog.records
        (changes.map Change.start) world.catalog.extent := by
  induction changes generalizing world with
  | nil => exact ⟨world, rfl, rfl⟩
  | cons change later ih =>
    obtain ⟨others, distinct⟩ := List.nodup_cons.mp distinct
    obtain ⟨next, made, extent⟩ := finish_memory fields world change
    obtain ⟨final, changed, reached⟩ := ih distinct next
    have kept : ∀ task ∈ later.map Change.start, next.catalog.records task.change.target =
        world.catalog.records task.change.target := by
      intro task member
      obtain ⟨other, further, rfl⟩ := List.mem_map.mp member
      have differs : other.target ≠ change.target := by
        intro same
        exact others (List.mem_map.mpr ⟨other, further, same⟩)
      have records := congrFun (congrArg Extent.records extent) other.target
      rw [Extent.afterAll_records differs] at records
      exact records
    refine ⟨final, ?_, ?_⟩
    · rw [changeEach, changeAlone_eq, change_memory]
      rw [finish] at made
      rw [made]
      dsimp only
      rw [changed, answersAhead_congr (memory fields) kept]
      rfl
    · rw [List.map_cons, extentAhead_cons, reached, extentAhead_congr kept, extent]
      rfl

/-- However the changes take turns, what they come to stays the same. -/
theorem ComesTo.interleave {changes : List (Change α ι)}
    (comesTo : ComesTo fields answers extent (changes.map Change.start) world)
    (distinct : (answers.map fun entry => entry.1.target).Nodup) (schedule : List Nat) :
    ComesTo fields answers extent ((memory fields).interleave schedule changes world).1
      ((memory fields).interleave schedule changes world).2 := by
  induction schedule using List.reverseRecOn with
  | nil => exact comesTo
  | append_singleton earlier position ih =>
    rw [Collection.interleave, List.foldl_append]
    exact ih.turn distinct position

theorem ComesTo.answered (comesTo : ComesTo fields answers extent ongoing world)
    (answered : ∀ task ∈ ongoing, task.stage.answer? ≠ none) :
    (ongoing.map fun task => (task.change, task.stage.answer?)) =
        answers.map (fun entry => (entry.1, some entry.2)) ∧
      world.catalog.extent = extent := by
  obtain ⟨_, rfl, rfl⟩ := comesTo
  exact ⟨answersAhead_of_answered answered, (extentAhead_of_answered answered _).symm⟩

theorem extentAhead_perm {changes order : List (Change α ι)} (reordered : order.Perm changes)
    (distinct : (changes.map Change.target).Nodup) {records : ι → Option α} (extent : Extent α ι) :
    (memory fields).extentAhead records (order.map Change.start) extent =
      (memory fields).extentAhead records (changes.map Change.start) extent := by
  refine (reordered.map Change.start).foldl_eq' ?_ extent
  intro first firstMember second secondMember extent
  obtain ⟨change, here, rfl⟩ := List.mem_map.mp firstMember
  obtain ⟨other, there, rfl⟩ := List.mem_map.mp secondMember
  by_cases same : change.target = other.target
  · have equal := List.inj_on_of_nodup_map distinct (reordered.mem_iff.mp here)
      (reordered.mem_iff.mp there) same
    rw [equal]
  · exact Extent.afterAll_comm same _ _ extent

/-- Changes of different ids in memory, made in turns of one call on a store each, whatever the turns and
whatever is stored: with a turn for the record and one for each field a change is answered, and once all
are answered, the same records are stored, the same entries exist and list the same ids, and each change
has the same answer as when they are made one after another, in any order. -/
theorem inMemory_changes_interleaved (fields : List (IndexedField α))
    (distinct : (fields.map IndexedField.name).Nodup) :
    inMemory fields (MemoryWorld.empty : MemoryWorld α ι) =
        (.ok (memory fields), MemoryWorld.empty) ∧
      ∀ (world : MemoryWorld α ι) (changes : List (Change α ι)), (changes.map Change.target).Nodup →
        ∀ (schedule : List Nat) (ongoing : List (Ongoing α ι)) (final : MemoryWorld α ι),
          (memory fields).interleave schedule changes world = (ongoing, final) →
          ((∀ position < changes.length, fields.length < schedule.count position) →
            ∀ task ∈ ongoing, task.stage.answer? ≠ none) ∧
          ((∀ task ∈ ongoing, task.stage.answer? ≠ none) →
            ∀ order, order.Perm changes → ∀ answers serial,
              (memory fields).changeEach order world = (answers, serial) →
              final.catalog.extent = serial.catalog.extent ∧
              (ongoing.map fun task => (task.change, task.stage.answer?)).Perm
                (answers.map fun entry => (entry.1, some entry.2))) := by
  refine ⟨inMemory_eq distinct, ?_⟩
  intro world changes different schedule ongoing final interleaved
  refine ⟨fun enough => ?_, ?_⟩
  · have answered := (memory fields).answered_of_turns changes world enough
    rw [interleaved] at answered
    exact answered
  intro answered order reordered answers serial changed
  have waiting : ComesTo fields
      ((memory fields).answersAhead world.catalog.records (changes.map Change.start))
      ((memory fields).extentAhead world.catalog.records (changes.map Change.start) world.catalog.extent)
      (changes.map Change.start) world := by
    refine ⟨?_, rfl, rfl⟩
    intro task member entries listing
    obtain ⟨change, _, rfl⟩ := List.mem_map.mp member
    cases listing
  have targets : (((memory fields).answersAhead world.catalog.records (changes.map Change.start)).map
      fun entry => entry.1.target) = changes.map Change.target := by
    simp [answersAhead, Change.start]
  have comesTo := waiting.interleave (by rw [targets]; exact different) schedule
  rw [interleaved] at comesTo
  obtain ⟨results, reached⟩ := comesTo.answered answered
  obtain ⟨_, made, extent⟩ := changeEach_memory fields
    ((reordered.map Change.target).nodup_iff.mpr different) world
  rw [made] at changed
  cases changed
  constructor
  · rw [reached, extent, extentAhead_perm reordered different]
  · rw [results]
    exact ((reordered.symm.map Change.start).map _).map _

end

/-- Two records with the same member. -/
def likeRecords : List (Change Numbered Int64) := [.put nestedRecord, .put { nestedRecord with id := 2 }]

/-- Both are added before either is listed. -/
def likeTurns : List (Ongoing Numbered Int64) × MemoryWorld Numbered Int64 :=
  (memory (IndexedField.members ["a.b"])).interleave [0, 1, 0, 1] likeRecords .empty

/-- Two records go into one new entry. -/
theorem inMemory_changes_interleaved_likeRecords :
    ((IndexedField.members ["a.b"] : List (IndexedField Numbered)).map IndexedField.name).Nodup ∧
      (likeRecords.map Change.target).Nodup ∧ (∀ task ∈ likeTurns.1, task.stage.answer? ≠ none) ∧
      ∃ answers serial, (memory (IndexedField.members ["a.b"])).changeEach likeRecords.reverse .empty =
          (answers, serial) ∧
        likeTurns.2.catalog.extent = serial.catalog.extent ∧
        (likeTurns.1.map fun task => (task.change, task.stage.answer?)).Perm
          (answers.map fun entry => (entry.1, some entry.2)) := by
  have distinct :
      ((IndexedField.members ["a.b"] : List (IndexedField Numbered)).map IndexedField.name).Nodup := by
    simp [IndexedField.members]
  have different : (likeRecords.map Change.target).Nodup := by decide +kernel
  obtain ⟨made, agrees⟩ := (inMemory_changes_interleaved _ distinct).2 .empty likeRecords different
    [0, 1, 0, 1] _ _ (Prod.eta _).symm
  have answered := made (by decide)
  obtain ⟨answers, serial, changed⟩ : ∃ answers serial,
      (memory (IndexedField.members ["a.b"])).changeEach likeRecords.reverse .empty =
        (answers, serial) := ⟨_, _, (Prod.eta _).symm⟩
  exact ⟨distinct, different, answered, answers, serial, changed,
    agrees answered likeRecords.reverse (List.reverse_perm _) _ _ changed⟩

end Collection

end DocStore
