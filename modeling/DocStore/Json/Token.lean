import DocStore.Json.Basic
import DocStore.Number.Literal

namespace DocStore.Json

inductive Token where
  | openArray
  | closeArray
  | openObject
  | closeObject
  | comma
  | colon
  | string (text : String)
  /-- A number, a truth value or null. -/
  | literal (value : Json)
deriving DecidableEq, Repr

/-- What the characters since the last finished token belong to; collected characters stand last
first. -/
inductive Scan where
  | between
  | number (seen : List Char)
  | word (seen : List Char)
  /-- Inside quotes; `escaping` right after a backslash. -/
  | string (escaping : Bool) (seen : List Char)
deriving DecidableEq, Repr

def hexValue? (c : Char) : Option Nat :=
  if c.isDigit then some (c.toNat - '0'.toNat)
  else if 'a' ≤ c ∧ c ≤ 'f' then some (c.toNat - 'a'.toNat + 10)
  else if 'A' ≤ c ∧ c ≤ 'F' then some (c.toNat - 'A'.toNat + 10)
  else none

/-- The code unit of four hexadecimal digits. -/
def unit? (a b c d : Char) : Option Nat := do
  some ((((← hexValue? a) * 16 + (← hexValue? b)) * 16 + (← hexValue? c)) * 16 + (← hexValue? d))

/-- The character after a backslash, other than `u`. -/
def shortEscape? (c : Char) : Option Char :=
  if c = '"' ∨ c = '\\' ∨ c = '/' then some c
  else if c = 'b' then some '\x08'
  else if c = 'f' then some '\x0c'
  else if c = 'n' then some '\n'
  else if c = 'r' then some '\r'
  else if c = 't' then some '\t'
  else none

def isHighUnit (unit : Nat) : Bool := 0xd800 ≤ unit && unit < 0xdc00

def isLowUnit (unit : Nat) : Bool := 0xdc00 ≤ unit && unit < 0xe000

/-- The contents of a string literal. Controls must be escaped, and code units beyond the basic
plane come in pairs. -/
def unquote? : List Char → Option (List Char)
  | [] => some []
  | '\\' :: 'u' :: a :: b :: c :: d :: '\\' :: 'u' :: a' :: b' :: c' :: d' :: rest => do
    let unit ← unit? a b c d
    if isHighUnit unit then
      let low ← unit? a' b' c' d'
      if isLowUnit low then
        some (Char.ofNat (0x10000 + (unit - 0xd800) * 0x400 + (low - 0xdc00)) :: (← unquote? rest))
      else none
    else if isLowUnit unit then none
    else some (Char.ofNat unit :: (← unquote? ('\\' :: 'u' :: a' :: b' :: c' :: d' :: rest)))
  | '\\' :: 'u' :: a :: b :: c :: d :: rest => do
    let unit ← unit? a b c d
    if isHighUnit unit || isLowUnit unit then none
    else some (Char.ofNat unit :: (← unquote? rest))
  | '\\' :: c :: rest => do some ((← shortEscape? c) :: (← unquote? rest))
  | c :: rest => do
    if c.toNat < 0x20 then none else some (c :: (← unquote? rest))

def isBlank (c : Char) : Bool := c = ' ' || c = '\t' || c = '\n' || c = '\r'

def isNumeric (c : Char) : Bool :=
  c.isDigit || c = '-' || c = '+' || c = '.' || c = 'e' || c = 'E'

namespace Token

def begin? (tokens : List Token) (c : Char) : Option (Scan × List Token) :=
  if isBlank c then some (.between, tokens)
  else if c = '"' then some (.string false [], tokens)
  else if c = '[' then some (.between, .openArray :: tokens)
  else if c = ']' then some (.between, .closeArray :: tokens)
  else if c = '\x7b' then some (.between, .openObject :: tokens)
  else if c = '\x7d' then some (.between, .closeObject :: tokens)
  else if c = ',' then some (.between, .comma :: tokens)
  else if c = ':' then some (.between, .colon :: tokens)
  else if c.isDigit ∨ c = '-' then some (.number [c], tokens)
  else if c.isLower then some (.word [c], tokens)
  else none

/-- Adds the token that ends before a character it cannot hold. -/
def close? (tokens : List Token) : Scan → Option (List Token)
  | .between => some tokens
  | .number seen => do some (.literal (.number (← Number.ofChars? seen.reverse)) :: tokens)
  | .word seen =>
    if seen.reverse = "null".toList then some (.literal .null :: tokens)
    else if seen.reverse = "true".toList then some (.literal (.boolean true) :: tokens)
    else if seen.reverse = "false".toList then some (.literal (.boolean false) :: tokens)
    else none
  | .string _ _ => none

/-- One character further; finished tokens stand last first. -/
def step? : Scan × List Token → Char → Option (Scan × List Token)
  | (.string true seen, tokens), c => some (.string false (c :: seen), tokens)
  | (.string false seen, tokens), c =>
    if c = '"' then do
      some (.between, .string (String.ofList (← unquote? seen.reverse)) :: tokens)
    else some (.string (c = '\\') (c :: seen), tokens)
  | (.number seen, tokens), c =>
    if isNumeric c then some (.number (c :: seen), tokens)
    else do begin? (← close? tokens (.number seen)) c
  | (.word seen, tokens), c =>
    if c.isLower then some (.word (c :: seen), tokens)
    else do begin? (← close? tokens (.word seen)) c
  | (.between, tokens), c => begin? tokens c

def ofChars? (text : List Char) : Option (List Token) := do
  let (scan, tokens) ← text.foldlM step? (.between, [])
  some (← close? tokens scan).reverse

end Token

end DocStore.Json
