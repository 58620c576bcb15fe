import DocStore.Number.Double
import DocStore.Toml.Basic

namespace DocStore.Toml

private def digitValue (c : Char) : Nat :=
  if c.isDigit then c.toNat - '0'.toNat else c.toLower.toNat - 'a'.toNat + 10

private def isHexDigit (c : Char) : Bool :=
  c.isDigit || ('a' ≤ c.toLower && c.toLower ≤ 'f')

private def isDigitIn (base : Nat) (c : Char) : Bool := isHexDigit c && digitValue c < base

private def inBase (base : Nat) (digits : List Char) : Nat :=
  digits.foldl (fun value c => base * value + digitValue c) 0

/-- Whether every underscore stands between two digits; `before` says whether a digit stands in front of
the text. -/
def groupsDigits (isDigit : Char → Bool) : Bool → List Char → Bool
  | _, [] => true
  | before, c :: rest =>
    (c != '_' || (before && rest.head?.any isDigit)) && groupsDigits isDigit (isDigit c) rest

private def integerValue? (base : Nat) (negative : Bool) (row : List Char) : Option Int :=
  let digits := row.filter (· ≠ '_')
  if digits.isEmpty || !digits.all (isDigitIn base) then none
  else
    let size : Int := inBase base digits
    let value := if negative then -size else size
    if -2 ^ 127 ≤ value ∧ value < 2 ^ 128 then some value else none

/-- An integer whose row is in a base of its own, which the text in front of it names. -/
private def based? (base : Nat) (row : List Char) : Option Toml :=
  if row.all (fun c => c == '_' || isDigitIn base c) && groupsDigits isHexDigit false row then
    some (.integer (integerValue? base false row))
  else none

/-- The digits in front of a text, among which underscores may stand, and what follows them. -/
private def digitRow? (text : List Char) : Option (List Char × List Char) :=
  let isRow (c : Char) : Bool := c.isDigit || c == '_'
  let digits := (text.takeWhile isRow).filter Char.isDigit
  if digits.isEmpty then none else some (digits, text.dropWhile isRow)

private def hasLeadingZero (digits : List Char) : Bool :=
  digits.head? = some '0' && 1 < digits.length

/-- The numbers from here on are nearer to infinity than to the greatest binary64 number. -/
private def infinityFrom : Nat := 2 ^ 1024 - 2 ^ 970

/-- Whether a row of decimal digits, times a power of ten, rounds to a finite binary64 number. -/
private def roundsFinite (digits : List Char) (exponent : Int) : Bool :=
  let digits := digits.dropWhile (· = '0')
  let magnitude := digits.length + exponent
  let significand := inBase 10 digits
  if digits.isEmpty || magnitude < 309 then true
  else if 309 < magnitude then false
  else if 0 ≤ exponent then significand * 10 ^ exponent.toNat < infinityFrom
  else significand < infinityFrom * 10 ^ (-exponent).toNat

private def float? (text : List Char) : Option Toml := do
  let (whole, rest) ← digitRow? text
  let (fraction, rest) ← match rest with
    | '.' :: rest => digitRow? rest
    | rest => some ([], rest)
  let (negative, power, rest) ← match rest with
    | 'e' :: rest | 'E' :: rest => do
      let (negative, rest) := match rest with
        | '-' :: rest => (true, rest)
        | '+' :: rest => (false, rest)
        | rest => (false, rest)
      let (power, rest) ← digitRow? rest
      some (negative, power, rest)
    | rest => some (false, [], rest)
  if rest.isEmpty && !hasLeadingZero whole && groupsDigits Char.isDigit false text then
    let size : Int := inBase 10 power
    let exponent := (if negative then -size else size) - fraction.length
    some (.float (roundsFinite (whole ++ fraction) exponent))
  else none

private def number? (count : Nat) (text : List Char) : Option (Nat × List Char) :=
  let digits := text.take count
  if digits.length = count ∧ digits.all Char.isDigit then some (inBase 10 digits, text.drop count)
  else none

private def daysIn (year month : Nat) : Nat :=
  if month = 2 then
    if year % 4 = 0 ∧ (year % 100 ≠ 0 ∨ year % 400 = 0) then 29 else 28
  else if month = 4 ∨ month = 6 ∨ month = 9 ∨ month = 11 then 30
  else 31

def date? (text : List Char) : Option (List Char) := do
  match ← number? 4 text with
  | (year, '-' :: text) =>
    match ← number? 2 text with
    | (month, '-' :: text) => do
      let (day, text) ← number? 2 text
      if 1 ≤ month ∧ month ≤ 12 ∧ 1 ≤ day ∧ day ≤ daysIn year month then some text else none
    | _ => none
  | _ => none

/-- A time of day in front of a text, seconds and their fraction being optional. -/
def time? (text : List Char) : Option (List Char) := do
  match ← number? 2 text with
  | (hour, ':' :: text) => do
    let (minute, text) ← number? 2 text
    if 24 ≤ hour ∨ 60 ≤ minute then none
    else
      match text with
      | ':' :: text => do
        let (second, text) ← number? 2 text
        if 60 < second then none
        else
          match text with
          | '.' :: text =>
            if text.head?.any Char.isDigit then some (text.dropWhile Char.isDigit) else none
          | text => some text
      | text => some text
  | _ => none

/-- Whether a text is the distance of a time zone, or empty. -/
def isOffset (text : List Char) : Bool :=
  match text with
  | [] | ['Z'] | ['z'] => true
  | sign :: rest =>
    (sign == '+' || sign == '-') &&
      match number? 2 rest with
      | some (hour, ':' :: rest) =>
        match number? 2 rest with
        | some (minute, []) => hour < 24 && minute < 60
        | _ => false
      | _ => false

def isMoment (text : List Char) : Bool :=
  match date? text with
  | some [] => true
  | some (separator :: rest) =>
    (separator == 'T' || separator == 't' || separator == ' ') &&
      ((time? rest).map isOffset).getD false
  | none => time? text == some []

/-- A number, date or time; `magnitude` is the text without its sign. What follows the first digits tells
the kinds apart. An integer with underscores may hold anything else too, but is then no number. -/
private def numeric? (text magnitude : List Char) : Option Toml :=
  let negative := text.head? = some '-'
  let digits := magnitude.takeWhile Char.isDigit
  let rest := magnitude.dropWhile Char.isDigit
  if magnitude = "inf".toList ∨ magnitude = "nan".toList then some (.float true)
  else if digits.isEmpty then none
  else if rest.isEmpty then
    if hasLeadingZero digits then none else some (.integer (integerValue? 10 negative digits))
  else if rest.head? = some '-' ∨ rest.head? = some ':' then
    if isMoment text then some .moment else none
  else if ' ' ∈ rest then none
  else if '.' ∈ rest ∨ 'e' ∈ rest ∨ 'E' ∈ rest then float? magnitude
  else if rest.head? = some '_' ∧ digits.head? ≠ some '0' ∧ groupsDigits isHexDigit false magnitude then
    some (.integer (integerValue? 10 negative magnitude))
  else none

def scalar? (text : List Char) : Option Toml :=
  if text = "true".toList then some (.boolean true)
  else if text = "false".toList then some (.boolean false)
  else
    match text with
    | '0' :: 'x' :: row => based? 16 row
    | '0' :: 'o' :: row => based? 8 row
    | '0' :: 'b' :: row => based? 2 row
    | '+' :: magnitude | '-' :: magnitude => numeric? text magnitude
    | _ => numeric? text text

end DocStore.Toml
