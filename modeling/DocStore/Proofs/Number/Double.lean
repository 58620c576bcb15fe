import DocStore.IndexValue
import DocStore.Proofs.Number.Literal
import Mathlib.Data.Nat.Cast.Field
import Mathlib.Data.Rat.Floor
import Mathlib.Tactic.NormNum

namespace DocStore

namespace Double

variable {value : Double} {whole : Int}

/-- The number that is represented, exactly. -/
def toRat (value : Double) : ℚ :=
  (if value.negative then -1 else 1) * (value.significand * 2 ^ value.exponent)

theorem den_pos (value : Double) : 0 < value.magnitude.2 := by
  unfold magnitude
  split
  case isTrue => exact Nat.one_pos
  case isFalse => exact Nat.two_pow_pos _

/-- The ratio that stands for the size of a number need not be in lowest terms. -/
theorem magnitude_eq (value : Double) :
    (value.magnitude.1 : ℚ) / value.magnitude.2 = value.significand * 2 ^ value.exponent := by
  unfold magnitude
  split
  case isTrue positive =>
    obtain ⟨power, same⟩ := Int.eq_ofNat_of_zero_le positive
    simp [same]
  case isFalse negative =>
    obtain ⟨power, same⟩ := Int.eq_ofNat_of_zero_le (by omega : 0 ≤ -value.exponent)
    have negated : value.exponent = -(power : Int) := by omega
    simp [negated]
    rfl

theorem toRat_eq (value : Double) : value.toRat =
    (if value.negative then -1 else 1) * ((value.magnitude.1 : ℚ) / value.magnitude.2) := by
  rw [toRat, magnitude_eq]

theorem toInt?_eq (value : Double) : value.toInt? =
    if value.magnitude.1 % value.magnitude.2 = 0 then
      some (if value.negative then -((value.magnitude.1 / value.magnitude.2 : Nat) : Int)
        else ((value.magnitude.1 / value.magnitude.2 : Nat) : Int))
    else none := rfl

theorem den_ne_zero (value : Double) : (value.magnitude.2 : ℚ) ≠ 0 :=
  Nat.cast_ne_zero.mpr value.den_pos.ne'

theorem toRat_of_toInt? (success : value.toInt? = some whole) : value.toRat = whole := by
  rw [toInt?_eq] at success
  split at success
  case isTrue divides =>
    have quotient : ((value.magnitude.1 / value.magnitude.2 : Nat) : ℚ) =
        value.magnitude.1 / value.magnitude.2 :=
      Nat.cast_div (Nat.dvd_of_mod_eq_zero divides) value.den_ne_zero
    rw [toRat_eq, ← quotient, ← Option.some.inj success]
    split <;> simp only [neg_mul, one_mul, Int.cast_neg, Int.cast_natCast]
  case isFalse => cases success

theorem toInt?_eq_some_iff : value.toInt? = some whole ↔ value.toRat = whole := by
  refine ⟨toRat_of_toInt?, fun same => ?_⟩
  have size : (value.magnitude.1 : ℚ) = whole.natAbs * value.magnitude.2 := by
    rw [← div_eq_iff value.den_ne_zero, Nat.cast_natAbs, Int.cast_abs, ← same, toRat_eq, abs_mul]
    split <;> simp [abs_of_nonneg, div_nonneg]
  have divides : value.magnitude.1 % value.magnitude.2 = 0 := by
    have exact : value.magnitude.1 = whole.natAbs * value.magnitude.2 := by exact_mod_cast size
    rw [exact, Nat.mul_mod_left]
  obtain ⟨found, success⟩ : ∃ found, value.toInt? = some found := ⟨_, if_pos divides⟩
  have unique : found = whole := by exact_mod_cast (toRat_of_toInt? success).symm.trans same
  rw [success, unique]

theorem toInt64?_eq_some_iff :
    value.toInt64? = some whole ↔ value.toRat = whole ∧ -2 ^ 63 ≤ whole ∧ whole < 2 ^ 63 := by
  rw [toInt64?, Option.filter_eq_some_iff, toInt?_eq_some_iff, decide_eq_true_eq]

end Double

/-- Some character of the text is a point or the mark of an exponent. -/
def Marked (text : String) : Prop := ∃ c ∈ text.toList, c = '.' ∨ c = 'e'

theorem Marked.append_left {text : String} (marked : Marked text) (front : String) :
    Marked (front ++ text) := by
  obtain ⟨c, inside, mark⟩ := marked
  exact ⟨c, by simp [inside], mark⟩

theorem DecimalLayout.marked_render (layout : DecimalLayout) (decimal : Decimal) :
    Marked (layout.render decimal) := by
  simp only [render]
  split
  case isTrue =>
    split
    case isTrue => exact ⟨'.', by simp, .inl rfl⟩
    case isFalse =>
    split
    case isTrue => exact ⟨'.', by simp, .inl rfl⟩
    case isFalse => exact ⟨'.', by simp, .inl rfl⟩
  case isFalse => exact ⟨'e', by simp, .inr rfl⟩

theorem Double.marked_text (value : Double) : Marked value.text := by
  have size : Marked (if value.isZero then "0.0" else DecimalLayout.standard.render value.shortest) := by
    split
    case isTrue => exact ⟨'.', by simp, .inl rfl⟩
    case isFalse => exact DecimalLayout.marked_render ..
  rw [text]
  split
  case isTrue => exact size.append_left "-"
  case isFalse => exact size

theorem not_marked_toString (value : Int) : ¬Marked (toString value) := by
  have digits (size : Nat) : ∀ c ∈ Nat.toDigits 10 size, ¬(c = '.' ∨ c = 'e') := by
    rintro c inside (rfl | rfl) <;>
      exact absurd (Nat.isDigit_of_mem_toDigits (by decide) (by decide) inside) (by decide)
  rintro ⟨c, inside, mark⟩
  rw [toList_toString] at inside
  rcases List.mem_append.mp inside with sign | digit
  · split at sign <;> simp_all
  · exact digits _ c digit mark

end DocStore
