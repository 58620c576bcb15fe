import DocStore.Proofs.Collection.Update
import Mathlib.Data.List.Induction
import Mathlib.Logic.Function.Iterate

namespace DocStore

variable {α ι : Type}

/-- How far a change has come. -/
inductive Stage where
  | waiting
  /-- The primary store has been changed and some entries are still to be updated. -/
  | listing (entries : List (IndexName × IndexValue))
  | ended (answer : Except QueryError Bool)

namespace Stage

def answer? : Stage → Option (Except QueryError Bool)
  | .listing [] => some (.ok true)
  | .ended answer => some answer
  | _ => none

def afterRecord : Except QueryError (Option (List (IndexName × IndexValue))) → Stage
  | .ok (some entries) => .listing entries
  | .ok none => .ended (.ok false)
  | .error error => .ended (.error error)

def afterEntry (later : List (IndexName × IndexValue)) : Except QueryError Unit → Stage
  | .ok () => .listing later
  | .error error => .ended (.error error)

/-- How many calls a change can still make, in a collection with so many fields. -/
def left (fields : Nat) : Stage → Nat
  | .waiting => fields + 1
  | .listing entries => entries.length
  | .ended _ => 0

theorem answered_of_left {fields : Nat} {stage : Stage} (none_left : stage.left fields = 0) :
    stage.answer? ≠ none := by
  cases stage with
  | waiting => cases none_left
  | listing entries =>
    obtain rfl := List.eq_nil_of_length_eq_zero none_left
    simp [answer?]
  | ended answer => simp [answer?]

end Stage

/-- A change that is being made. -/
structure Ongoing (α ι : Type) where
  change : Change α ι
  stage : Stage

namespace Change

def start (change : Change α ι) : Ongoing α ι := ⟨change, .waiting⟩

variable [Record α ι]

def target : Change α ι → ι
  | .put record => Record.id record
  | .drop id => id

end Change

namespace Collection

variable {σ τ : Type} [DecidableEq ι] [Record α ι]

/-- The call of a change on the primary store; gives the entries to update if it took effect. -/
def changeRecord (collection : Collection σ τ α ι) (tx : τ) :
    Change α ι → QueryAction σ (Option (List (IndexName × IndexValue)))
  | .put record => do
    let entries ← Action.ofExcept (collection.project record)
    if ← (collection.records.add tx (Record.id record) record).mapError .store then pure (some entries)
    else pure none
  | .drop id => do
    match ← (collection.records.remove tx id).mapError .store with
    | some record => do
      let entries ← Action.ofExcept (collection.project record)
      pure (some entries)
    | none => pure none

def changeEntry (collection : Collection σ τ α ι) (tx : τ) :
    Change α ι → IndexName × IndexValue → QueryAction σ Unit
  | .put record => collection.addToIndex tx (Record.id record)
  | .drop id => collection.removeFromIndex tx id

/-- Makes the next call of a change, if there is one. -/
def advance (collection : Collection σ τ α ι) (tx : τ) (change : Change α ι) : Stage → σ → Stage × σ
  | .waiting, world => (collection.changeRecord tx change world).map .afterRecord id
  | .listing (entry :: later), world =>
    (collection.changeEntry tx change entry world).map (.afterEntry later) id
  | stage, world => (stage, world)

/-- What is left to do of a change. -/
def finish (collection : Collection σ τ α ι) (tx : τ) (change : Change α ι) : Stage → QueryAction σ Bool
  | .waiting => collection.changeIn tx change
  | .listing entries => do
    forEntries (collection.changeEntry tx change) entries
    pure true
  | .ended answer => Action.ofExcept answer

variable (collection : Collection σ τ α ι) (tx : τ) (change : Change α ι)

theorem changeIn_eq : collection.changeIn tx change = (do
    match ← collection.changeRecord tx change with
    | some entries => do
      forEntries (collection.changeEntry tx change) entries
      pure true
    | none => pure false) := by
  cases change with
  | put record =>
    simp only [changeIn, insertIn, changeRecord, bind_assoc]
    congr 1
    funext entries
    congr 1
    funext added
    cases added <;> rfl
  | drop id =>
    simp only [changeIn, removeIn, changeRecord, bind_assoc]
    congr 1
    funext removed
    cases removed with
    | none => rfl
    | some record => simp only [bind_assoc, pure_bind]; rfl

/-- What is left to do of a change is its next call and what is left after it, whatever the stores do. -/
theorem finish_advance (stage : Stage) (world : σ) :
    collection.finish tx change stage world =
      collection.finish tx change (collection.advance tx change stage world).1
        (collection.advance tx change stage world).2 := by
  cases stage with
  | waiting =>
    rw [finish, changeIn_eq, advance]
    rcases ended : collection.changeRecord tx change world with ⟨error | entries?, next⟩
    · rw [Action.bind_of_error ended]
      rfl
    · rw [Action.bind_of_ok ended]
      cases entries? <;> rfl
  | listing entries =>
    cases entries with
    | nil => rfl
    | cons entry later =>
      rw [finish, forEntries, bind_assoc, advance]
      rcases ended : collection.changeEntry tx change entry world with ⟨error | _, next⟩
      · rw [Action.bind_of_error ended]
        rfl
      · rw [Action.bind_of_ok ended]
        rfl
  | ended answer => rfl

theorem finish_of_answered {stage : Stage} {answer : Except QueryError Bool}
    (answered : stage.answer? = some answer) (world : σ) :
    collection.finish tx change stage world = (answer, world) := by
  cases stage with
  | waiting => cases answered
  | listing entries =>
    cases entries with
    | nil => cases answered; rfl
    | cons => cases answered
  | ended => cases answered; rfl

/-- A change that makes its calls undisturbed comes to what it comes to in one go. -/
theorem changeIn_of_calls {calls : Nat} {stage : Stage} {answer : Except QueryError Bool}
    {world next : σ}
    (made : (fun state : Stage × σ => collection.advance tx change state.1 state.2)^[calls]
      (.waiting, world) = (stage, next))
    (answered : stage.answer? = some answer) :
    collection.changeIn tx change world = (answer, next) := by
  have kept (state : Stage × σ) : collection.finish tx change state.1 state.2 =
      collection.finish tx change
        ((fun state : Stage × σ => collection.advance tx change state.1 state.2)^[calls] state).1
        ((fun state : Stage × σ => collection.advance tx change state.1 state.2)^[calls] state).2 := by
    clear made
    induction calls generalizing state with
    | zero => rfl
    | succ calls ih =>
      rw [Function.iterate_succ_apply, finish_advance]
      exact ih _
  have whole := kept (.waiting, world)
  rw [made, collection.finish_of_answered tx change answered] at whole
  exact whole

/-- Gives one of some changes a turn, if there is one at the position. -/
def turn (collection : Collection σ Unit α ι) (position : Nat) :
    List (Ongoing α ι) × σ → List (Ongoing α ι) × σ
  | (ongoing, world) =>
    match ongoing[position]? with
    | some ⟨change, stage⟩ =>
      let (stage, next) := collection.advance () change stage world
      (ongoing.set position ⟨change, stage⟩, next)
    | none => (ongoing, world)

/-- Makes some changes that take turns as a schedule says. -/
def interleave (collection : Collection σ Unit α ι) (schedule : List Nat) (changes : List (Change α ι))
    (world : σ) : List (Ongoing α ι) × σ :=
  schedule.foldl (fun state position => collection.turn position state) (changes.map Change.start, world)

def changeEach (collection : Collection σ τ α ι) :
    List (Change α ι) → σ → List (Change α ι × Except QueryError Bool) × σ
  | [], world => ([], world)
  | change :: later, world =>
    let (answer, next) := collection.changeAlone change world
    let (answers, final) := changeEach collection later next
    ((change, answer) :: answers, final)

omit [DecidableEq ι] in
theorem length_of_changeRecord {change : Change α ι} {entries : List (IndexName × IndexValue)}
    {world next : σ} (made : collection.changeRecord tx change world = (.ok (some entries), next)) :
    entries.length = collection.fields.length := by
  have lengths {record : α} (projected : collection.project record = .ok entries) :
      entries.length = collection.fields.length :=
    (project_eq_ok_iff.mp projected).length_eq.symm
  cases change with
  | put record =>
    obtain ⟨_, _, projected, made⟩ := Action.bind_eq_ok made
    obtain ⟨added, _, _, made⟩ := Action.bind_eq_ok made
    cases added with
    | false => cases made
    | true =>
      cases made
      exact lengths (Action.ofExcept_eq_ok projected).1
  | drop id =>
    obtain ⟨found, _, _, made⟩ := Action.bind_eq_ok made
    cases found with
    | none => cases made
    | some record =>
      obtain ⟨_, _, projected, made⟩ := Action.bind_eq_ok made
      cases made
      exact lengths (Action.ofExcept_eq_ok projected).1

theorem left_advance (stage : Stage) (world : σ) :
    (collection.advance tx change stage world).1.left collection.fields.length ≤
      stage.left collection.fields.length - 1 := by
  cases stage with
  | waiting =>
    rw [advance]
    rcases made : collection.changeRecord tx change world with ⟨error | _ | entries, next⟩
    · exact Nat.zero_le _
    · exact Nat.zero_le _
    · exact Nat.le_of_eq (collection.length_of_changeRecord tx made)
  | listing entries =>
    cases entries with
    | nil => exact Nat.zero_le _
    | cons entry later =>
      rw [advance]
      rcases collection.changeEntry tx change entry world with ⟨error | _, next⟩
      · exact Nat.zero_le _
      · exact Nat.le_refl _
  | ended answer => exact Nat.zero_le _

section

variable (collection : Collection σ Unit α ι) (changes : List (Change α ι)) (world : σ)

/-- A turn makes a call of one change and leaves the others as they are. -/
theorem left_turn (position : Nat) (ongoing : List (Ongoing α ι)) :
    (collection.turn position (ongoing, world)).1.length = ongoing.length ∧
      ∀ (other : Nat) task, (collection.turn position (ongoing, world)).1[other]? = some task →
        ∃ before, ongoing[other]? = some before ∧ task.stage.left collection.fields.length ≤
          before.stage.left collection.fields.length - if position = other then 1 else 0 := by
  rw [turn]
  cases found : ongoing[position]? with
  | none =>
    refine ⟨rfl, fun other task here => ⟨task, here, ?_⟩⟩
    have differs : position ≠ other := by
      rintro rfl
      rw [found] at here
      cases here
    simp [differs]
  | some held =>
    refine ⟨List.length_set, ?_⟩
    intro other task here
    by_cases same : position = other
    · subst same
      rw [List.getElem?_set_self (List.getElem?_eq_some_iff.mp found).1] at here
      cases here
      exact ⟨held, found, by simpa using collection.left_advance () held.change held.stage world⟩
    · rw [List.getElem?_set_ne same] at here
      exact ⟨task, here, by simp [same]⟩

/-- Each turn of a change makes one of its calls, whoever has the turns in between. -/
theorem left_interleave (schedule : List Nat) :
    (collection.interleave schedule changes world).1.length = changes.length ∧
      ∀ (position : Nat) task,
        (collection.interleave schedule changes world).1[position]? = some task →
        task.stage.left collection.fields.length ≤
          collection.fields.length + 1 - schedule.count position := by
  induction schedule using List.reverseRecOn with
  | nil =>
    refine ⟨by simp [interleave], ?_⟩
    intro position task here
    simp only [interleave, List.foldl_nil, List.getElem?_map, Option.map_eq_some_iff] at here
    obtain ⟨change, _, rfl⟩ := here
    exact Nat.le_refl _
  | append_singleton earlier turned ih =>
    have step := collection.left_turn (collection.interleave earlier changes world).2 turned
      (collection.interleave earlier changes world).1
    rw [interleave, List.foldl_append]
    refine ⟨step.1.trans ih.1, ?_⟩
    intro position task here
    obtain ⟨before, found, fewer⟩ := step.2 position task here
    have few := ih.2 position before found
    simp only [List.count_append, List.count_singleton, beq_iff_eq]
    omega

/-- A change that has had a turn for its record and one for each field is answered. -/
theorem answered_of_turns {schedule : List Nat}
    (enough : ∀ position < changes.length, collection.fields.length < schedule.count position) :
    ∀ task ∈ (collection.interleave schedule changes world).1, task.stage.answer? ≠ none := by
  obtain ⟨length, few⟩ := collection.left_interleave changes world schedule
  intro task member
  obtain ⟨position, bound, rfl⟩ := List.mem_iff_getElem.mp member
  have turns := enough position (length ▸ bound)
  have fewer := few position _ (List.getElem?_eq_getElem bound)
  rw [Nat.sub_eq_zero_of_le turns] at fewer
  exact Stage.answered_of_left (Nat.le_zero.mp fewer)

end

end Collection

end DocStore
