import DocStore.Number.Basic

namespace DocStore

structure Literal where
  negative : Bool
  whole : List Nat
  fraction : Option (List Nat)
  exponent : Option Int

namespace Literal

/-- The longest row of decimal digits in front, and what follows it. -/
def digits (text : List Char) : List Nat × List Char :=
  ((text.takeWhile Char.isDigit).map (fun c => c.toNat - '0'.toNat), text.dropWhile Char.isDigit)

def natOfDigits (digits : List Nat) : Nat := digits.foldl (fun value digit => 10 * value + digit) 0

def fraction? : List Char → Option (Option (List Nat) × List Char)
  | '.' :: text =>
    match digits text with
    | ([], _) => none
    | (row, rest) => some (some row, rest)
  | text => some (none, text)

def magnitude? (text : List Char) : Option Int :=
  match digits text with
  | ([], _) => none
  | (row, []) => some (natOfDigits row)
  | _ => none

def exponent? : List Char → Option (Option Int)
  | [] => some none
  | mark :: text =>
    if mark = 'e' ∨ mark = 'E' then
      match text with
      | '+' :: rest => (magnitude? rest).map some
      | '-' :: rest => (magnitude? rest).map fun value => some (-value)
      | rest => (magnitude? rest).map some
    else none

def ofChars? (text : List Char) : Option Literal := do
  let (negative, text) := match text with
    | '-' :: rest => (true, rest)
    | rest => (false, rest)
  let (whole, text) := digits text
  match whole with
  | [] | 0 :: _ :: _ => none
  | whole =>
    let (fraction, text) ← fraction? text
    some ⟨negative, whole, fraction, ← exponent? text⟩

/-- Appends digits to a significand as long as it stays below `2 ^ 64`; also the digits left over. -/
def gather : Nat → List Nat → Nat × List Nat
  | significand, [] => (significand, [])
  | significand, digit :: rest =>
    if 10 * significand + digit < 2 ^ 64 then gather (10 * significand + digit) rest
    else (significand, digit :: rest)

/-- The binary64 number of a literal: a significand of at most 64 bits, rounded, then scaled by the
power of ten that is left. Whole digits that do not fit raise that power, fraction digits that do
not fit are ignored. None when the number is out of range. -/
def toDouble? (literal : Literal) : Option Double := do
  let (significand, extra) := gather 0 literal.whole
  let fraction := literal.fraction.getD []
  let (significand, ignored) := gather significand fraction
  let power : Int := literal.exponent.getD 0 + extra.length - (fraction.length - ignored.length : Nat)
  let size ← (← Double.ofRatio? false significand 1).scale? power
  some (if literal.negative then size.negate else size)

/-- A plain whole literal in the range of 64-bit integers, signed or not, is an integer. Minus zero
has no integer. -/
def toInt? (literal : Literal) : Option Int :=
  match literal.fraction, literal.exponent with
  | none, none =>
    let size := natOfDigits literal.whole
    if literal.negative then if 0 < size ∧ size ≤ 2 ^ 63 then some (-size) else none
    else if size < 2 ^ 64 then some size else none
  | _, _ => none

def toNumber? (literal : Literal) : Option Number :=
  match literal.toInt? with
  | some value => some (.integer value)
  | none => literal.toDouble?.map .double

end Literal

def Number.ofChars? (text : List Char) : Option Number := do
  (← Literal.ofChars? text).toNumber?

end DocStore
