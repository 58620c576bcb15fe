/-! Actions on a mutable world. An action may fail, and what it changed before it failed stays
changed. -/
namespace DocStore

/-- An action on a world `σ` that gives an `α` or fails with an `ε`. -/
def Action (ε σ α : Type) : Type := σ → Except ε α × σ

namespace Action

variable {ε ε' σ α β : Type}

instance : Monad (Action ε σ) where
  pure value := fun world => (.ok value, world)
  bind action next := fun world =>
    match action world with
    | (.ok value, world) => next value world
    | (.error error, world) => (.error error, world)

instance : MonadExceptOf ε (Action ε σ) where
  throw error := fun world => (.error error, world)
  tryCatch action handler := fun world =>
    match action world with
    | (.ok value, world) => (.ok value, world)
    | (.error error, world) => handler error world

@[simp] theorem pure_apply (value : α) (world : σ) :
    (pure value : Action ε σ α) world = (.ok value, world) := rfl

theorem bind_apply (action : Action ε σ α) (next : α → Action ε σ β) (world : σ) :
    (action >>= next) world =
      match action world with
      | (.ok value, world) => next value world
      | (.error error, world) => (.error error, world) := rfl

@[simp] theorem throw_apply (error : ε) (world : σ) :
    (throw error : Action ε σ α) world = (.error error, world) := rfl

private theorem id_map (action : Action ε σ α) : id <$> action = action := by
  funext world
  change (action >>= pure) world = action world
  cases ended : action world with
  | mk outcome next => cases outcome <;> simp [bind_apply, ended]

private theorem bind_assoc {γ : Type} (action : Action ε σ α) (next : α → Action ε σ β)
    (last : β → Action ε σ γ) :
    action >>= next >>= last = action >>= fun value => next value >>= last := by
  funext world
  cases ended : action world with
  | mk outcome middle => cases outcome <;> simp [bind_apply, ended]

instance : LawfulMonad (Action ε σ) := LawfulMonad.mk' _ id_map (fun _ _ => rfl) bind_assoc

/-- The outcome of an action as a value. -/
def attempt (action : Action ε σ α) : Action ε' σ (Except ε α) := fun world =>
  let (outcome, world) := action world
  (.ok outcome, world)

def mapError (wrap : ε → ε') (action : Action ε σ α) : Action ε' σ α := fun world =>
  let (outcome, world) := action world
  (outcome.mapError wrap, world)

def ofExcept (outcome : Except ε α) : Action ε σ α := fun world => (outcome, world)

def changing (change : σ → σ) : Action ε σ Unit := fun world => (.ok (), change world)

variable {action : Action ε σ α} {world next : σ} {value : α} {error : ε}

theorem bind_of_ok {rest : α → Action ε σ β} (success : action world = (.ok value, next)) :
    (action >>= rest) world = rest value next := by
  rw [bind_apply, success]

theorem bind_of_error {rest : α → Action ε σ β} (failure : action world = (.error error, next)) :
    (action >>= rest) world = (.error error, next) := by
  rw [bind_apply, failure]

theorem map_apply (f : α → β) (action : Action ε σ α) (world : σ) :
    (f <$> action) world = ((action world).1.map f, (action world).2) := by
  change (action >>= pure ∘ f) world = _
  cases ended : action world with
  | mk outcome next => cases outcome <;> simp [bind_apply, ended, Except.map]

theorem bind_eq_ok {rest : α → Action ε σ β} {result : β}
    (success : (action >>= rest) world = (.ok result, next)) :
    ∃ value middle, action world = (.ok value, middle) ∧ rest value middle = (.ok result, next) := by
  rw [bind_apply] at success
  split at success
  case h_1 value middle first => exact ⟨value, middle, first, success⟩
  case h_2 => cases success

theorem mapError_of_ok {wrap : ε → ε'} (success : action world = (.ok value, next)) :
    action.mapError wrap world = (.ok value, next) := by
  rw [mapError, success]
  rfl

theorem mapError_of_error {wrap : ε → ε'} (failure : action world = (.error error, next)) :
    action.mapError wrap world = (.error (wrap error), next) := by
  rw [mapError, failure]
  rfl

theorem mapError_eq_ok {wrap : ε → ε'} (success : action.mapError wrap world = (.ok value, next)) :
    action world = (.ok value, next) := by
  cases ended : action world with
  | mk outcome final =>
    cases outcome with
    | ok found =>
      rw [mapError_of_ok ended] at success
      cases success
      rfl
    | error cause =>
      rw [mapError_of_error ended] at success
      cases success

theorem attempt_apply {outcome : Except ε α} (ended : action world = (outcome, next)) :
    (action.attempt : Action ε' σ _) world = (.ok outcome, next) := by
  simp [attempt, ended]

@[simp] theorem ofExcept_apply (outcome : Except ε α) (world : σ) :
    ofExcept outcome world = (outcome, world) := rfl

theorem ofExcept_eq_ok {outcome : Except ε α} (success : ofExcept outcome world = (.ok value, next)) :
    outcome = .ok value ∧ next = world :=
  ⟨congrArg Prod.fst success, (congrArg Prod.snd success).symm⟩

/-- The action leaves every world as it is, whether it succeeds or fails. -/
def Keeps (action : Action ε σ α) : Prop := ∀ world, (action world).2 = world

theorem keeps_pure (value : α) : (pure value : Action ε σ α).Keeps := fun _ => rfl

theorem keeps_ofExcept (outcome : Except ε α) : (ofExcept outcome : Action ε σ α).Keeps :=
  fun _ => rfl

theorem Keeps.bind {rest : α → Action ε σ β} (keeps : action.Keeps)
    (further : ∀ value, (rest value).Keeps) : (action >>= rest).Keeps := by
  intro world
  have same := keeps world
  rw [bind_apply]
  cases ended : action world with
  | mk outcome next =>
    rw [ended] at same
    cases outcome with
    | ok value => exact (further value next).trans same
    | error error => exact same

end Action

end DocStore
