import DocStore.Number.Shortest

namespace DocStore

/-- How far from the point a decimal may start and still be written without an exponent. -/
structure DecimalLayout where
  leastPositional : Int
  greatestPositional : Int

namespace DecimalLayout

/-- Numbers from `10 ^ -5` up to `10 ^ 16` are written positionally and always with a point, all
others with a signed exponent. -/
def standard : DecimalLayout := ⟨-5, 15⟩

private def zeros (count : Nat) : String := String.ofList (List.replicate count '0')

def render (layout : DecimalLayout) (decimal : Decimal) : String :=
  let digits := Nat.toDigits 10 decimal.digits
  let leading := decimal.exponent + digits.length - 1
  if layout.leastPositional ≤ leading ∧ leading ≤ layout.greatestPositional then
    if 0 ≤ decimal.exponent then
      String.ofList digits ++ zeros decimal.exponent.toNat ++ ".0"
    else if 0 ≤ leading then
      String.ofList (digits.take (leading.toNat + 1)) ++ "." ++
        String.ofList (digits.drop (leading.toNat + 1))
    else
      "0." ++ zeros ((-leading).toNat - 1) ++ String.ofList digits
  else
    let point := if digits.length = 1 then "" else "."
    let sign := if leading < 0 then "-" else "+"
    String.ofList (digits.take 1) ++ point ++ String.ofList (digits.drop 1) ++
      "e" ++ sign ++ toString leading.natAbs

end DecimalLayout

/-- The shortest text that reads back as the number. -/
def Double.text (value : Double) : String :=
  let size := if value.isZero then "0.0" else DecimalLayout.standard.render value.shortest
  if value.negative then "-" ++ size else size

inductive Number where
  | integer (value : Int)
  | double (value : Double)
deriving DecidableEq, Repr

def Number.text : Number → String
  | .integer value => toString value
  | .double value => value.text

end DocStore
