import DocStore.Proofs.Json.Read

namespace DocStore.Json

variable {limit lower : Nat} {text : String} {value : Json}

namespace Progress

variable {progress last next : Progress} {stack : List Frame} {token : Token} {row : List Token}

theorem fits_of_give (fits : (give value stack).Fits limit) :
    Frame.Fits limit stack ∧ stack.length + value.depth ≤ limit := by
  cases stack with
  | nil => exact ⟨trivial, by simpa [give, Fits] using fits⟩
  | cons frame rest =>
    rw [List.length_cons]
    cases frame with
    | array items =>
      obtain ⟨deepest, others⟩ := fits
      rw [depthItems] at deepest
      exact ⟨⟨by omega, others⟩, by omega⟩
    | member members key =>
      obtain ⟨deepest, others⟩ := fits
      rw [depthMembers, depthMember] at deepest
      exact ⟨⟨by omega, others⟩, by omega⟩

/-- A step to what keeps to a lower limit starts from what keeps to it, and is made under it as well. -/
theorem start?_lower (success : start? limit stack token = some next) (fits : next.Fits lower) :
    Frame.Fits lower stack ∧ start? lower stack token = some next := by
  unfold start? at success
  split at success
  case h_1 =>
    split at success
    case isTrue =>
      cases success
      have room := fits.1
      rw [depthItems] at room
      exact ⟨fits.2, if_pos room⟩
    case isFalse => cases success
  case h_2 =>
    split at success
    case isTrue =>
      cases success
      have room := fits.1
      rw [depthMembers] at room
      exact ⟨fits.2, if_pos room⟩
    case isFalse => cases success
  case h_3 | h_4 =>
    cases success
    exact ⟨(fits_of_give fits).1, rfl⟩
  case h_5 => cases success

theorem step?_lower (success : step? limit progress token = some next) (fits : next.Fits lower) :
    progress.Fits lower ∧ step? lower progress token = some next := by
  unfold step? at success
  split at success
  case h_1 => exact start?_lower success fits
  case h_2 | h_7 =>
    cases success
    obtain ⟨below, bounded⟩ := fits_of_give fits
    rw [depth] at bounded
    exact ⟨⟨by omega, below⟩, rfl⟩
  case h_3 stack token opens =>
    obtain ⟨below, started⟩ := start?_lower success fits
    refine ⟨below, ?_⟩
    rwa [step?]
    exact opens
  case h_5 items stack =>
    cases success
    obtain ⟨below, bounded⟩ := fits_of_give fits
    rw [depth, depthItems_reverse] at bounded
    exact ⟨⟨by omega, below⟩, rfl⟩
  case h_11 members stack =>
    cases success
    obtain ⟨below, bounded⟩ := fits_of_give fits
    rw [depth, depthMembers_reverse] at bounded
    exact ⟨⟨by omega, below⟩, rfl⟩
  case h_4 | h_6 | h_8 | h_9 | h_10 =>
    cases success
    exact ⟨fits, rfl⟩
  case h_12 => cases success

theorem Leads.of_fits (leads : Leads limit progress row last) (fits : last.Fits lower) :
    progress.Fits lower ∧ Leads lower progress row last := by
  induction row generalizing progress with
  | nil =>
    cases leads
    exact ⟨fits, rfl⟩
  | cons token rest ih =>
    rw [Leads, List.foldlM_cons] at leads
    obtain ⟨middle, stepped, further⟩ := Option.bind_eq_some_iff.mp leads
    obtain ⟨between, follows⟩ := ih further
    obtain ⟨start, first⟩ := step?_lower stepped between
    exact ⟨start, .cons first follows⟩

end Progress

theorem readRaw?_lower (success : readRaw? limit text = some value) (fits : value.depth ≤ lower) :
    readRaw? lower text = some value := by
  obtain ⟨row, cut, success⟩ := Option.bind_eq_some_iff.mp success
  obtain ⟨last, reached, result⟩ := Option.bind_eq_some_iff.mp success
  cases last with
  | done found =>
    cases result
    obtain ⟨_, follows⟩ := Progress.Leads.of_fits reached fits
    exact Option.bind_eq_some_iff.mpr ⟨row, cut, Option.bind_eq_some_iff.mpr ⟨_, follows, rfl⟩⟩
  | _ => cases result

/-- The text is the value written down in some way, nested however deep. -/
def Denotes (text : String) (value : Json) : Prop := ∃ limit, readRaw? limit text = some value

theorem readRaw?_eq_some_iff :
    readRaw? limit text = some value ↔ Denotes text value ∧ value.depth ≤ limit := by
  constructor
  · exact fun success => ⟨⟨limit, success⟩, depth_of_readRaw? success⟩
  · rintro ⟨⟨_, success⟩, fits⟩
    exact readRaw?_lower success fits

theorem Denotes.unique {other : Json} (denotes : Denotes text value) (another : Denotes text other) :
    value = other := by
  have first := readRaw?_eq_some_iff.mpr ⟨denotes, Nat.le_max_left value.depth other.depth⟩
  have second := readRaw?_eq_some_iff.mpr ⟨another, Nat.le_max_right value.depth other.depth⟩
  exact Option.some.inj (first.symm.trans second)

end DocStore.Json
