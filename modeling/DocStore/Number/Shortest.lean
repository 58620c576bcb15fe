import DocStore.Number.Double

/-! The shortest decimal that reads back as a given number. All reals of an interval around a number
round to it; among the decimals of that interval those with fewest digits are taken, of them the one
nearest the number, and the one with an even last digit when two are equally near. -/
namespace DocStore

/-- The positive decimal `digits * 10 ^ exponent`. -/
structure Decimal where
  digits : Nat
  exponent : Int
deriving DecidableEq, Repr

namespace Decimal

/-- The least power of ten that is no less than `den / num`, by its exponent, given `num < den`. -/
private def shift (num den : Nat) : Nat :=
  let estimate := (Nat.toDigits 10 (den / num)).length - 1
  if den ≤ num * 10 ^ estimate then estimate else estimate + 1

def leading (num den : Nat) : Int :=
  if den ≤ num then ((Nat.toDigits 10 (num / den)).length : Int) - 1 else -(shift num den : Int)

/-- The same decimal without trailing zeros, given at most `fuel` of them. -/
def trim : Nat → Decimal → Decimal
  | 0, decimal => decimal
  | fuel + 1, decimal =>
    if decimal.digits % 10 = 0 ∧ decimal.digits ≠ 0 then
      trim fuel ⟨decimal.digits / 10, decimal.exponent + 1⟩
    else decimal

end Decimal

namespace Double

/-- The reals that round to a positive number, as twice the number and its two bounds over one
denominator. Both bounds belong to the interval when the significand is even. The lower neighbour of
a power of two is only half as far as the upper one. -/
structure Interval where
  low : Nat
  middle : Nat
  high : Nat
  den : Nat
  closed : Bool

def interval (value : Double) : Interval :=
  let (num, den) := scaled 2 1 1 (-value.exponent)
  let half := if value.significand = 2 ^ 52 ∧ value.exponent ≠ -1074 then 1 else 2
  { low := (4 * value.significand - half) * num
    middle := 4 * value.significand * num
    high := (4 * value.significand + 2) * num
    den := 4 * den
    closed := value.significand % 2 = 0 }

/-- The multiple of `10 ^ exponent` that lies in the interval and is nearest its middle. -/
def Interval.pick? (interval : Interval) (exponent : Int) : Option Decimal :=
  let (num, den) := scaled 10 interval.middle interval.den exponent
  let (low, _) := scaled 10 interval.low interval.den exponent
  let (high, _) := scaled 10 interval.high interval.den exponent
  let inside (digits : Nat) : Bool :=
    if interval.closed then low ≤ digits * den ∧ digits * den ≤ high
    else low < digits * den ∧ digits * den < high
  let below := num / den
  let twice := 2 * (num % den)
  match inside below, inside (below + 1) with
  | true, true =>
    some ⟨if twice < den ∨ (twice = den ∧ below % 2 = 0) then below else below + 1, exponent⟩
  | true, false => some ⟨below, exponent⟩
  | false, true => some ⟨below + 1, exponent⟩
  | false, false => none

/-- The shortest decimal of a number other than zero, without its sign. Seventeen digits always
suffice. -/
def shortest (value : Double) : Decimal :=
  let interval := value.interval
  let leading := Decimal.leading interval.middle interval.den
  let decimal := (List.range 17).findSome? fun (count : Nat) => interval.pick? (leading - count)
  Decimal.trim 20 (decimal.getD ⟨0, 0⟩)

end Double

end DocStore
