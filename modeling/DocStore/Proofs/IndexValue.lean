import DocStore.Proofs.Number.Double
import Mathlib

namespace DocStore

def truncated (value : ℚ) : Int := if value < 0 then ⌈value⌉ else ⌊value⌋

/-- The integer of 64 bits, signed, that is nearest. -/
def saturated (value : Int) : Int := max (-2 ^ 63) (min value (2 ^ 63 - 1))

theorem truncated_intCast (value : Int) : truncated value = value := by
  rw [truncated, Int.ceil_intCast, Int.floor_intCast, ite_self]

theorem saturated_of_within {value : Int} (least : -2 ^ 63 ≤ value) (greatest : value < 2 ^ 63) :
    saturated value = value := by
  rw [saturated, min_eq_left (Int.le_sub_one_of_lt greatest), max_eq_right least]

namespace Double

/-- The least integer of 64 bits is a binary64 number. -/
theorem toRat_least {least : Double} (nearest : ofRatio? true (2 ^ 63) 1 = some least) :
    least.toRat = ((-2 ^ 63 : Int) : ℚ) := by
  have exact : ofRatio? true (2 ^ 63) 1 = some ⟨true, 2 ^ 52, 11, by decide⟩ := by decide +kernel
  obtain rfl := Option.some.inj (nearest.symm.trans exact)
  norm_num [toRat]

/-- The greatest one is not, and the nearest binary64 number is the integer after it. -/
theorem toRat_greatest {greatest : Double} (nearest : ofRatio? false (2 ^ 63 - 1) 1 = some greatest) :
    greatest.toRat = ((2 ^ 63 : Int) : ℚ) := by
  have above : ofRatio? false (2 ^ 63 - 1) 1 = some ⟨false, 2 ^ 52, 11, by decide⟩ := by decide +kernel
  obtain rfl := Option.some.inj (nearest.symm.trans above)
  norm_num [toRat]

end Double

namespace IndexValue

variable {value : Double} {whole : Int}

theorem numberText_of_toInt64? (stands : value.toInt64? = some whole) :
    numberText (.double value) = toString whole := by
  rw [numberText, stands]

theorem numberText_of_none (none : value.toInt64? = none) : numberText (.double value) = value.text := by
  rw [numberText, none]

/-- The text can be found with comparisons of binary64 numbers and a conversion that saturates, although
the greatest integer of 64 bits is compared with as the number after it. -/
theorem numberText_eq_cast {least greatest : Double}
    (nearLeast : Double.ofRatio? true (2 ^ 63) 1 = some least)
    (nearGreatest : Double.ofRatio? false (2 ^ 63 - 1) 1 = some greatest) (value : Double) :
    numberText (.double value) =
      if value.toRat = truncated value.toRat ∧ least.toRat ≤ value.toRat ∧
          value.toRat < greatest.toRat then
        toString (saturated (truncated value.toRat))
      else value.text := by
  rw [Double.toRat_least nearLeast, Double.toRat_greatest nearGreatest]
  cases stands : value.toInt64? with
  | some whole =>
    obtain ⟨same, least, greatest⟩ := Double.toInt64?_eq_some_iff.mp stands
    rw [numberText_of_toInt64? stands, same, truncated_intCast, saturated_of_within least greatest,
      if_pos ⟨rfl, Int.cast_le.mpr least, Int.cast_lt.mpr greatest⟩]
  | none =>
    rw [numberText_of_none stands, if_neg]
    rintro ⟨exact, least, greatest⟩
    rw [exact, Int.cast_le] at least
    rw [exact, Int.cast_lt] at greatest
    have found := Double.toInt64?_eq_some_iff.mpr ⟨exact, least, greatest⟩
    cases stands.symm.trans found

/-- A binary64 number shares the entry of an integer if and only if it is that integer and fits into 64 bits
with a sign. Then its text is the decimal of the integer, also where the program compares with rounded bounds
and converts with saturation; any other number keeps the text of its own, which no integer has. -/
theorem ofJson_double_exact (value : Double) :
    (∀ whole : Int, ofJson (.number (.double value)) = ofJson (.number (.integer whole)) ↔
      value.toRat = whole ∧ -2 ^ 63 ≤ whole ∧ whole < 2 ^ 63) ∧
    (∀ whole : Int, value.toRat = whole → -2 ^ 63 ≤ whole → whole < 2 ^ 63 →
      ofJson (.number (.double value)) = .text (toString whole)) ∧
    ((¬∃ whole : Int, value.toRat = whole ∧ -2 ^ 63 ≤ whole ∧ whole < 2 ^ 63) →
      ofJson (.number (.double value)) = .text value.text ∧ Marked value.text) ∧
    ∀ least greatest, Double.ofRatio? true (2 ^ 63) 1 = some least →
      Double.ofRatio? false (2 ^ 63 - 1) 1 = some greatest →
      ofJson (.number (.double value)) = .text
        (if value.toRat = truncated value.toRat ∧ least.toRat ≤ value.toRat ∧
            value.toRat < greatest.toRat then
          toString (saturated (truncated value.toRat))
        else value.text) := by
  have shared {whole : Int} (within : value.toRat = whole ∧ -2 ^ 63 ≤ whole ∧ whole < 2 ^ 63) :
      numberText (.double value) = toString whole :=
    numberText_of_toInt64? (Double.toInt64?_eq_some_iff.mpr within)
  refine ⟨?_, ?_, ?_, ?_⟩
  · intro whole
    rw [ofJson, ofJson, text.injEq]
    refine ⟨fun same => ?_, shared⟩
    cases stands : value.toInt64? with
    | some other =>
      rw [numberText_of_toInt64? stands] at same
      obtain rfl : other = whole := Int.repr_inj.mp same
      exact Double.toInt64?_eq_some_iff.mp stands
    | none =>
      rw [numberText_of_none stands] at same
      have marked := value.marked_text
      rw [same] at marked
      exact absurd marked (not_marked_toString whole)
  · exact fun whole same least greatest => congrArg text (shared ⟨same, least, greatest⟩)
  · intro outside
    refine ⟨congrArg text (numberText_of_none ?_), value.marked_text⟩
    rw [Option.eq_none_iff_forall_ne_some]
    exact fun whole stands => outside ⟨whole, Double.toInt64?_eq_some_iff.mp stands⟩
  · exact fun least greatest nearLeast nearGreatest =>
      congrArg text (numberText_eq_cast nearLeast nearGreatest value)

/-- Zero and the least integer of 64 bits share their entries with numbers, the number after the greatest
integer has an entry of its own, as has a half. -/
theorem ofJson_double_exact_ends :
    (∀ negative, ofJson (.number (.double (.zero negative))) = ofJson (.number (.integer 0))) ∧
      ofJson (.number (.double ⟨true, 2 ^ 52, 11, by decide⟩)) = .text "-9223372036854775808" ∧
      ofJson (.number (.double ⟨false, 2 ^ 52, 11, by decide⟩)) = .text "9.223372036854776e+18" ∧
      ofJson (.number (.double ⟨false, 2 ^ 52, -53, by decide⟩)) = .text "0.5" := by
  have nearLeast : Double.ofRatio? true (2 ^ 63) 1 = some ⟨true, 2 ^ 52, 11, by decide⟩ := by
    decide +kernel
  have nearGreatest : Double.ofRatio? false (2 ^ 63 - 1) 1 = some ⟨false, 2 ^ 52, 11, by decide⟩ := by
    decide +kernel
  refine ⟨?_, ?_, ?_, ?_⟩
  · intro negative
    obtain ⟨same, _⟩ := ofJson_double_exact (.zero negative)
    exact (same 0).mpr ⟨by simp [Double.toRat, Double.zero], by decide, by decide⟩
  · obtain ⟨_, shared, _⟩ := ofJson_double_exact ⟨true, 2 ^ 52, 11, by decide⟩
    exact shared (-2 ^ 63) (Double.toRat_least nearLeast) (by decide) (by decide)
  · obtain ⟨_, _, _, cast⟩ := ofJson_double_exact ⟨false, 2 ^ 52, 11, by decide⟩
    rw [cast _ _ nearLeast nearGreatest, if_neg fun below => lt_irrefl _ below.2.2]
    decide +kernel
  · obtain ⟨_, _, own, _⟩ := ofJson_double_exact ⟨false, 2 ^ 52, -53, by decide⟩
    have fractional : (⟨false, 2 ^ 52, -53, by decide⟩ : Double).toInt? = none := by decide +kernel
    refine (own ?_).1.trans (by decide +kernel)
    rintro ⟨whole, same, _⟩
    cases fractional.symm.trans (Double.toInt?_eq_some_iff.mpr same)

end IndexValue

end DocStore
