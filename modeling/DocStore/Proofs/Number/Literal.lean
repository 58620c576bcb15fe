import DocStore.Json.Token
import Mathlib.Data.List.TakeWhile

namespace DocStore

namespace Literal

theorem natOfDigits_map (row : List Char) :
    natOfDigits (row.map fun c => c.toNat - '0'.toNat) = Nat.ofDigitChars 10 row 0 := by
  rw [natOfDigits, List.foldl_map]
  rfl

theorem digits_of_all {row : List Char} (all : ∀ c ∈ row, c.isDigit = true) :
    digits row = (row.map fun c => c.toNat - '0'.toNat, []) := by
  rw [digits, List.takeWhile_eq_self_iff.mpr all, List.dropWhile_eq_nil_iff.mpr all]

/-- All characters may stand in a number. -/
def Numeric (text : List Char) : Prop := ∀ c ∈ text, Json.isNumeric c = true

theorem numeric_cons {c : Char} {text : List Char} (first : Json.isNumeric c = true)
    (rest : Numeric text) : Numeric (c :: text) := by
  intro other member
  rcases List.mem_cons.mp member with rfl | later
  · exact first
  · exact rest other later

theorem numeric_of_digits {text : List Char} (rest : Numeric (digits text).2) : Numeric text := by
  intro c member
  rw [← List.takeWhile_append_dropWhile (p := Char.isDigit) (l := text)] at member
  rcases List.mem_append.mp member with digit | later
  · simp [Json.isNumeric, List.mem_takeWhile_imp digit]
  · exact rest c later

theorem numeric_of_magnitude? {text : List Char} {value : Int}
    (success : magnitude? text = some value) : Numeric text := by
  rw [magnitude?] at success
  split at success
  case h_1 => cases success
  case h_2 row plain =>
    apply numeric_of_digits
    rw [plain]
    exact fun _ member => absurd member List.not_mem_nil
  case h_3 => cases success

theorem numeric_of_exponent? {text : List Char} {exponent : Option Int}
    (success : exponent? text = some exponent) : Numeric text := by
  unfold exponent? at success
  split at success
  case h_1 => exact fun _ member => absurd member List.not_mem_nil
  case h_2 mark rest =>
    split at success
    case isFalse => cases success
    case isTrue marked =>
      have first : Json.isNumeric mark = true := by
        rcases marked with rfl | rfl <;> rfl
      apply numeric_cons first
      split at success
      case h_1 rest =>
        obtain ⟨value, found, _⟩ := Option.map_eq_some_iff.mp success
        exact numeric_cons rfl (numeric_of_magnitude? found)
      case h_2 rest =>
        obtain ⟨value, found, _⟩ := Option.map_eq_some_iff.mp success
        exact numeric_cons rfl (numeric_of_magnitude? found)
      case h_3 rest _ _ =>
        obtain ⟨value, found, _⟩ := Option.map_eq_some_iff.mp success
        exact numeric_of_magnitude? found

theorem numeric_of_fraction? {text rest : List Char} {fraction : Option (List Nat)}
    (success : fraction? text = some (fraction, rest)) (further : Numeric rest) : Numeric text := by
  unfold fraction? at success
  split at success
  case h_1 after =>
    apply numeric_cons rfl
    apply numeric_of_digits
    split at success
    case h_1 => cases success
    case h_2 row remaining cut =>
      rw [cut]
      cases success
      exact further
  case h_2 =>
    cases success
    exact further

/-- A literal is made of numeric characters and starts with a digit or a minus sign. -/
theorem numeric_of_ofChars? {text : List Char} {literal : Literal}
    (success : ofChars? text = some literal) :
    Numeric text ∧ ∃ first rest, text = first :: rest ∧ (first.isDigit = true ∨ first = '-') := by
  unfold ofChars? at success
  split at success
  case h_1 negative body signed =>
    have numeric : Numeric body ∧ ∃ first rest, body = first :: rest ∧ first.isDigit = true := by
      split at success
      case h_1 whole after front =>
        split at success
        case h_1 => cases success
        case h_2 => cases success
        case h_3 nonempty _ =>
          obtain ⟨⟨fraction, rest⟩, cut, success⟩ := Option.bind_eq_some_iff.mp success
          obtain ⟨exponent, found, _⟩ := Option.bind_eq_some_iff.mp success
          have further : Numeric (digits body).2 := by
            rw [front]
            exact numeric_of_fraction? cut (numeric_of_exponent? found)
          refine ⟨numeric_of_digits further, ?_⟩
          cases body with
          | nil => exact absurd (Prod.mk.inj front).1.symm nonempty
          | cons first rest =>
            refine ⟨first, rest, rfl, ?_⟩
            by_contra letter
            rw [digits, List.takeWhile_cons_of_neg letter] at front
            exact nonempty (Prod.mk.inj front).1.symm
    split at signed
    case h_1 rest =>
      cases signed
      exact ⟨numeric_cons rfl numeric.1, _, _, rfl, .inr rfl⟩
    case h_2 =>
      cases signed
      obtain ⟨all, first, rest, same, digit⟩ := numeric
      exact ⟨all, first, rest, same, .inl digit⟩

theorem head?_toDigits_ne {value : Nat} (positive : 0 < value) :
    (Nat.toDigits 10 value).head? ≠ some '0' := by
  induction value using Nat.strongRecOn with
  | ind value ih =>
    rw [Nat.toDigits_eq_if (by decide)]
    split
    case isTrue single =>
      have nonzero : ∀ digit < 10, 0 < digit → Nat.digitChar digit ≠ '0' := by decide
      simpa using nonzero value single positive
    case isFalse several =>
      have earlier := ih (value / 10) (by omega) (by omega)
      cases front : Nat.toDigits 10 (value / 10) with
      | nil => exact absurd front Nat.toDigits_ne_nil
      | cons first rest =>
        rw [front] at earlier
        simpa using earlier

theorem digitValue_eq_zero {c : Char} (digit : c.isDigit = true) (zero : c.toNat - '0'.toNat = 0) :
    c = '0' := by
  have bounds : '0'.toNat ≤ c.toNat := by
    simp only [Char.isDigit, Bool.and_eq_true, decide_eq_true_eq] at digit
    exact digit.1
  have same : c.toNat = '0'.toNat := by omega
  exact Char.toNat_inj.mp same

/-- The decimal digits of a natural are one literal, with or without a minus sign before them. -/
theorem ofChars?_toDigits (negative : Bool) (value : Nat) :
    ofChars? ((if negative then ['-'] else []) ++ Nat.toDigits 10 value) =
      some ⟨negative, (Nat.toDigits 10 value).map fun c => c.toNat - '0'.toNat, none, none⟩ := by
  have all : ∀ c ∈ Nat.toDigits 10 value, c.isDigit = true := fun c member =>
    Nat.isDigit_of_mem_toDigits (by decide) (by decide) member
  have split := digits_of_all all
  cases spelled : Nat.toDigits 10 value with
  | nil => exact absurd spelled Nat.toDigits_ne_nil
  | cons first rest =>
    rw [spelled] at all split
    have digit := all first (by simp)
    have unsigned : first ≠ '-' := by
      intro equal
      subst equal
      simp at digit
    have leading : rest ≠ [] → first.toNat - '0'.toNat ≠ 0 := by
      intro several zero
      have positive : 0 < value := by
        rcases Nat.eq_zero_or_pos value with rfl | positive
        · rw [Nat.toDigits_zero] at spelled
          simp only [List.cons.injEq] at spelled
          exact absurd spelled.2.symm several
        · exact positive
      apply head?_toDigits_ne positive
      rw [spelled, digitValue_eq_zero digit zero]
      rfl
    unfold ofChars?
    split
    case h_1 sign text found =>
      have same : negative = sign ∧ first :: rest = text := by
        cases negative with
        | false =>
          simp only [Bool.false_eq_true, if_false, List.nil_append] at found
          split at found
          case h_1 _ _ minus => exact absurd (List.cons.inj minus).1 unsigned
          case h_2 => exact Prod.mk.inj found
        | true => exact Prod.mk.inj found
      obtain ⟨rfl, rfl⟩ := same
      rw [split]
      dsimp only
      cases rest with
      | nil => simp [fraction?, exponent?]
      | cons second others =>
        obtain ⟨before, nonzero⟩ := Nat.exists_eq_succ_of_ne_zero (leading (by simp))
        rw [List.map_cons, List.map_cons, nonzero]
        rfl

end Literal

theorem toList_toString (value : Int) : (toString value).toList =
    (if value < 0 then ['-'] else []) ++ Nat.toDigits 10 value.natAbs := by
  rw [Int.toString_eq_repr]
  cases value with
  | ofNat size =>
    rw [Int.repr, Nat.toList_repr]
    simp
  | negSucc size =>
    rw [Int.repr, String.toList_append, Nat.toList_repr, if_pos (Int.negSucc_lt_zero size)]
    rfl

/-- Integers of 64 bits, signed or not, read back from their texts. -/
theorem Number.ofChars?_integer {value : Int} (least : -2 ^ 63 ≤ value) (greatest : value < 2 ^ 64) :
    Number.ofChars? (toString value).toList = some (.integer value) := by
  have cut := Literal.ofChars?_toDigits (decide (value < 0)) value.natAbs
  have read : Literal.toInt? ⟨decide (value < 0),
      (Nat.toDigits 10 value.natAbs).map fun c => c.toNat - '0'.toNat, none, none⟩ = some value := by
    simp only [Literal.toInt?, Literal.natOfDigits_map, Nat.ofDigitChars_ten_toDigits, decide_eq_true_eq]
    split
    case isTrue negative =>
      rw [if_pos (by omega), Int.ofNat_natAbs_of_nonpos (Int.le_of_lt negative), Int.neg_neg]
    case isFalse nonnegative =>
      rw [if_pos (by omega), Int.natAbs_of_nonneg (Int.not_lt.mp nonnegative)]
  simp only [decide_eq_true_eq] at cut
  rw [toList_toString, Number.ofChars?, cut, Option.bind_eq_bind, Option.bind_some, Literal.toNumber?,
    read]

end DocStore
