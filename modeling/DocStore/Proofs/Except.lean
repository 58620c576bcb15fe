import Mathlib.Data.List.Forall2

namespace DocStore

/-- Lists are related to some list when each of their members is related to something. -/
theorem exists_forall₂_iff {α β : Type} {R : α → β → Prop} {items : List α} :
    (∃ results, List.Forall₂ R items results) ↔ ∀ item ∈ items, ∃ result, R item result := by
  induction items with
  | nil => simp
  | cons first rest ih =>
    rw [List.forall_mem_cons, ← ih]
    constructor
    · intro given
      obtain ⟨_, related⟩ := given
      cases related with
      | cons here others => exact ⟨⟨_, here⟩, _, others⟩
    · intro given
      obtain ⟨⟨result, here⟩, results, others⟩ := given
      exact ⟨result :: results, .cons here others⟩

theorem bind_eq_ok_iff {ε α β : Type} {first : Except ε α} {next : α → Except ε β} {result : β} :
    first >>= next = .ok result ↔ ∃ value, first = .ok value ∧ next value = .ok result := by
  cases first with
  | error cause =>
    constructor
    · intro done
      cases done
    · rintro ⟨_, found, _⟩
      cases found
  | ok value =>
    constructor
    · intro done
      exact ⟨value, rfl, done⟩
    · rintro ⟨_, found, done⟩
      cases found
      exact done

theorem bind_eq_error_iff {ε α β : Type} {first : Except ε α} {next : α → Except ε β} {cause : ε} :
    first >>= next = .error cause ↔
      first = .error cause ∨ ∃ value, first = .ok value ∧ next value = .error cause := by
  cases first <;> simp [bind, Except.bind]

theorem mapM_eq_ok_iff {ε α β : Type} {read : α → Except ε β} {items : List α} {results : List β} :
    items.mapM read = .ok results ↔
      List.Forall₂ (fun item result => read item = .ok result) items results := by
  induction items generalizing results with
  | nil =>
    rw [List.mapM_nil, List.forall₂_nil_left_iff]
    constructor
    · intro done
      exact (Except.ok.inj done).symm
    · rintro rfl
      rfl
  | cons first rest ih =>
    simp only [List.mapM_cons, bind_eq_ok_iff, ih, List.forall₂_cons_left_iff]
    constructor
    · rintro ⟨result, here, others, further, done⟩
      exact ⟨result, others, here, further, (Except.ok.inj done).symm⟩
    · rintro ⟨result, others, here, further, rfl⟩
      exact ⟨result, here, others, further, rfl⟩

section

variable {ε α β : Type} {read : α → Except ε β} {items : List α}

/-- A list fails for the reason of the first member that fails. -/
theorem mapM_eq_error_iff {cause : ε} :
    items.mapM read = .error cause ↔
      ∃ before item after, items = before ++ item :: after ∧
        (∀ earlier ∈ before, ∃ result, read earlier = .ok result) ∧ read item = .error cause := by
  induction items with
  | nil => simp [pure, Except.pure]
  | cons first rest ih =>
    simp only [List.mapM_cons, bind_eq_error_iff, ih]
    constructor
    · rintro (failed | ⟨result, found, ⟨before, item, after, rfl, accepted, failed⟩ | ⟨_, _, ⟨⟩⟩⟩)
      · exact ⟨[], first, rest, rfl, nofun, failed⟩
      · exact ⟨first :: before, item, after, rfl,
          List.forall_mem_cons.mpr ⟨⟨result, found⟩, accepted⟩, failed⟩
    · rintro ⟨before, item, after, split, accepted, failed⟩
      cases before with
      | nil =>
        obtain ⟨rfl, rfl⟩ := List.cons.inj split
        exact .inl failed
      | cons second others =>
        obtain ⟨rfl, rfl⟩ := List.cons.inj split
        obtain ⟨⟨result, found⟩, accepted⟩ := List.forall_mem_cons.mp accepted
        exact .inr ⟨result, found, .inl ⟨others, item, after, rfl, accepted, failed⟩⟩

theorem exists_mapM_ok_iff :
    (∃ results, items.mapM read = .ok results) ↔ ∀ item ∈ items, ∃ result, read item = .ok result := by
  simp only [mapM_eq_ok_iff, exists_forall₂_iff]

theorem exists_mapM_error_iff :
    (∃ cause, items.mapM read = .error cause) ↔ ∃ item ∈ items, ∃ cause, read item = .error cause := by
  constructor
  · rintro ⟨cause, failed⟩
    obtain ⟨before, item, after, rfl, _, refused⟩ := mapM_eq_error_iff.mp failed
    exact ⟨item, by simp, cause, refused⟩
  · rintro ⟨item, member, cause, refused⟩
    cases whole : items.mapM read with
    | error reason => exact ⟨reason, rfl⟩
    | ok results =>
      obtain ⟨result, found⟩ := exists_mapM_ok_iff.mp ⟨results, whole⟩ item member
      cases refused.symm.trans found

end

end DocStore
