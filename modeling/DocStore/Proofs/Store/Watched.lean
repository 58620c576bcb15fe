import DocStore.Proofs.Store.Request

namespace DocStore

/-- A world with the list of what was done in it, the latest deed last. -/
structure Watched (δ σ : Type) where
  deeds : List δ
  inner : σ

namespace Watched

variable {δ ε ε' σ τ κ ν α β : Type}

/-- Does something and writes down how it ended. -/
def act (deed : Except ε α → δ) (action : Action ε σ α) : Action ε (Watched δ σ) α := fun world =>
  let (outcome, inner) := action world.inner
  (outcome, ⟨world.deeds ++ [deed outcome], inner⟩)

theorem act_apply (deed : Except ε α → δ) {action : Action ε σ α} {outcome : Except ε α}
    {world next : σ} (ended : action world = (outcome, next)) (past : List δ) :
    act deed action ⟨past, world⟩ = (outcome, ⟨past ++ [deed outcome], next⟩) := by
  simp only [act, ended]

/-- The deeds of a family of stores, told apart by where they are done. -/
structure Notes (δ τ κ ν : Type) where
  begun : Except StoreError τ → δ
  begunRead : Except StoreError τ → δ
  asked : τ → Request κ ν → Except StoreError (Reply ν) → δ
  listed : Except StoreError Unit → δ

def store (notes : Notes δ τ κ ν) (inner : LeafStore σ τ κ ν) :
    LeafStore (Watched δ σ) τ κ ν where
  begin := act notes.begun inner.begin
  beginRead := act notes.begunRead inner.beginRead
  get tx key := act (fun outcome => notes.asked tx (.get key) (outcome.map .value)) (inner.get tx key)
  find tx key :=
    act (fun outcome => notes.asked tx (.find key) (outcome.map .found)) (inner.find tx key)
  add tx key value :=
    act (fun outcome => notes.asked tx (.add key value) (outcome.map .added)) (inner.add tx key value)
  remove tx key :=
    act (fun outcome => notes.asked tx (.remove key) (outcome.map .found)) (inner.remove tx key)
  getOrAdd tx key build :=
    act (fun outcome => notes.asked tx (.getOrAdd key build) (outcome.map .value))
      (inner.getOrAdd tx key build)
  addOrUpdate tx key first update :=
    act (fun outcome => notes.asked tx (.addOrUpdate key first update) (outcome.map .value))
      (inner.addOrUpdate tx key first update)
  keys := act (fun outcome => notes.listed (outcome.map fun _ => ())) inner.keys
  values := act (fun outcome => notes.listed (outcome.map fun _ => ())) inner.values

/-- A watched action ends as the action itself does, and the deeds it wrote down have some shape. -/
def Logs (watched : Action ε (Watched δ σ) α) (plain : Action ε σ α)
    (shape : List δ → Except ε α → Prop) : Prop :=
  ∀ past world, ∃ deeds,
    watched ⟨past, world⟩ = ((plain world).1, ⟨past ++ deeds, (plain world).2⟩) ∧
      shape deeds (plain world).1

variable {watched : Action ε (Watched δ σ) α} {plain : Action ε σ α}
  {shape finer : List δ → Except ε α → Prop}

theorem Logs.mono (logs : Logs watched plain finer)
    (implies : ∀ deeds outcome, finer deeds outcome → shape deeds outcome) :
    Logs watched plain shape := by
  intro past world
  obtain ⟨deeds, same, fine⟩ := logs past world
  exact ⟨deeds, same, implies _ _ fine⟩

theorem logs_ofExcept (outcome : Except ε α) :
    Logs (δ := δ) (σ := σ) (Action.ofExcept outcome) (Action.ofExcept outcome)
      fun deeds ended => deeds = [] ∧ ended = outcome :=
  fun past world => ⟨[], by simp, rfl, rfl⟩

theorem logs_act (deed : Except ε α → δ) (action : Action ε σ α) :
    Logs (act deed action) action fun deeds outcome => deeds = [deed outcome] :=
  fun _ _ => ⟨_, rfl, rfl⟩

theorem Logs.mapError (wrap : ε → ε') (logs : Logs watched plain shape) :
    Logs (watched.mapError wrap) (plain.mapError wrap) fun deeds outcome =>
      ∃ ended, shape deeds ended ∧ outcome = ended.mapError wrap := by
  intro past world
  obtain ⟨deeds, same, fine⟩ := logs past world
  refine ⟨deeds, ?_, _, fine, rfl⟩
  simp only [Action.mapError, same]

/-- What is done after something is written down after it; a failure ends the list. -/
theorem Logs.bind {further : α → Action ε (Watched δ σ) β} {rest : α → Action ε σ β}
    {later : α → List δ → Except ε β → Prop} (logs : Logs watched plain shape)
    (next : ∀ value first, shape first (.ok value) →
      Logs (further value) (rest value) (later value)) :
    Logs (watched >>= further) (plain >>= rest) fun deeds outcome =>
      (∃ error, shape deeds (.error error) ∧ outcome = .error error) ∨
        ∃ value first second, deeds = first ++ second ∧ shape first (.ok value) ∧
          later value second outcome := by
  intro past world
  obtain ⟨first, same, fine⟩ := logs past world
  rcases ended : plain world with ⟨error | value, middle⟩
  · rw [ended] at same fine
    refine ⟨first, ?_, .inl ⟨error, fine, ?_⟩⟩
    · rw [Action.bind_of_error same, Action.bind_of_error ended]
    · rw [Action.bind_of_error ended]
  · rw [ended] at same fine
    obtain ⟨second, sameAfter, fineAfter⟩ := next value first fine (past ++ first) middle
    refine ⟨first ++ second, ?_, .inr ⟨value, first, second, rfl, fine, ?_⟩⟩
    · rw [Action.bind_of_ok same, Action.bind_of_ok ended, sameAfter, List.append_assoc]
    · rw [Action.bind_of_ok ended]
      exact fineAfter

/-- A single deed is written down before all that is done after it; if it fails it is the only one. -/
theorem logs_act_bind (deed : Except ε α → δ) (action : Action ε σ α) (wrap : ε → ε')
    {further : α → Action ε' (Watched δ σ) β} {rest : α → Action ε' σ β}
    {later : α → List δ → Except ε' β → Prop}
    (next : ∀ value, Logs (further value) (rest value) (later value)) :
    Logs ((act deed action).mapError wrap >>= further) (action.mapError wrap >>= rest)
      fun deeds outcome =>
        (∃ error, deeds = [deed (.error error)] ∧ outcome = .error (wrap error)) ∨
          ∃ value second, deeds = deed (.ok value) :: second ∧ later value second outcome := by
  refine (((logs_act deed action).mapError wrap).bind fun value _ _ => next value).mono ?_
  rintro deeds outcome (⟨error, ⟨ended, rfl, failed⟩, rfl⟩ |
    ⟨value, _, second, rfl, ⟨ended, rfl, made⟩, fine⟩)
  · cases ended with
    | ok value => cases failed
    | error cause =>
      cases failed
      exact .inl ⟨cause, rfl, rfl⟩
  · cases ended with
    | error cause => cases made
    | ok same =>
      cases made
      exact .inr ⟨value, second, rfl, fine⟩

end Watched

end DocStore
