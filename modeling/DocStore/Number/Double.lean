/-! Finite binary64 numbers held exactly: a sign, a significand and a power of two. Arithmetic is
done on ratios of naturals and rounded once, to the nearest number and to the even significand of two
equally near ones. -/
namespace DocStore

-- Powers are the built-in ones in every module, whichever others it imports.
@[default_instance 20000]
instance (priority := 20000) builtInPower {α : Type} [NatPow α] : Pow α Nat := instPowNat

/-- The one form each number has: all 53 bits of the significand are used, or the exponent is the
least one. -/
def Double.Canonical (significand : Nat) (exponent : Int) : Prop :=
  significand < 2 ^ 53 ∧ -1074 ≤ exponent ∧ exponent ≤ 971 ∧
    (2 ^ 52 ≤ significand ∨ exponent = -1074)

instance (significand : Nat) (exponent : Int) : Decidable (Double.Canonical significand exponent) := by
  unfold Double.Canonical; infer_instance

/-- The number `significand * 2 ^ exponent`, negated when `negative` is set. Zero has a sign. -/
structure Double where
  negative : Bool
  significand : Nat
  exponent : Int
  canonical : Double.Canonical significand exponent
deriving DecidableEq, Repr

namespace Double

def zero (negative : Bool) : Double := ⟨negative, 0, -1074, by decide⟩

instance : Inhabited Double := ⟨zero false⟩

def isZero (value : Double) : Bool := value.significand == 0

def negate (value : Double) : Double := { value with negative := !value.negative }

/-- `num / den / base ^ exponent` as a ratio of naturals. -/
def scaled (base num den : Nat) (exponent : Int) : Nat × Nat :=
  if 0 ≤ exponent then (num, den * base ^ exponent.toNat)
  else (num * base ^ (-exponent).toNat, den)

/-- The quotient rounded to the nearest natural, and a half to the even one. -/
def nearest (num den : Nat) : Nat :=
  let quotient := num / den
  let twice := 2 * (num % den)
  if twice < den ∨ (twice = den ∧ quotient % 2 = 0) then quotient else quotient + 1

/-- The exponent at which the integer part of a positive ratio has 53 bits, or the least exponent
there is. -/
def unitExponent (num den : Nat) : Int :=
  let estimate : Int := (Nat.log2 num : Int) - Nat.log2 den - 53
  let (high, low) := scaled 2 num den estimate
  max (-1074) (if high / low < 2 ^ 53 then estimate else estimate + 1)

def ofParts? (negative : Bool) (significand : Nat) (exponent : Int) : Option Double :=
  if canonical : Canonical significand exponent then some ⟨negative, significand, exponent, canonical⟩
  else none

/-- The number nearest to `num / den`; none when that is beyond the greatest finite number. -/
def ofRatio? (negative : Bool) (num den : Nat) : Option Double :=
  if num = 0 then some (zero negative)
  else
    let exponent := unitExponent num den
    let (high, low) := scaled 2 num den exponent
    let significand := nearest high low
    if significand = 2 ^ 53 then ofParts? negative (2 ^ 52) (exponent + 1)
    else ofParts? negative significand exponent

def magnitude (value : Double) : Nat × Nat :=
  if 0 ≤ value.exponent then (value.significand * 2 ^ value.exponent.toNat, 1)
  else (value.significand, 2 ^ (-value.exponent).toNat)

def multiply? (left right : Double) : Option Double :=
  let (num, den) := left.magnitude
  let (num', den') := right.magnitude
  ofRatio? (left.negative ^^ right.negative) (num * num') (den * den')

/-- The quotient; dividing by zero has no finite answer. -/
def divide? (left right : Double) : Option Double :=
  if right.isZero then none
  else
    let (num, den) := left.magnitude
    let (num', den') := right.magnitude
    ofRatio? (left.negative ^^ right.negative) (num * den') (den * num')

def tenTo? (power : Nat) : Option Double := ofRatio? false (10 ^ power) 1

/-- Multiplies by a power of ten in rounded steps: one step as long as the power of ten is itself a
number, else further divisions by `10 ^ 308` until the rest is. Zero stays zero at any power, and
anything else multiplied by more than `10 ^ 308` is out of range. -/
def scale? (value : Double) (power : Int) : Option Double :=
  if value.isZero then some value
  else if 308 < power then none
  else if 0 ≤ power then do value.multiply? (← tenTo? power.toNat)
  else if -308 ≤ power then do value.divide? (← tenTo? (-power).toNat)
  else do (← value.divide? (← tenTo? 308)).scale? (power + 308)
termination_by power.natAbs

def toInt? (value : Double) : Option Int :=
  let (num, den) := value.magnitude
  if num % den = 0 then
    some (if value.negative then -((num / den : Nat) : Int) else ((num / den : Nat) : Int))
  else none

end Double

end DocStore
