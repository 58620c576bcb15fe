import DocStore.Json.Token

namespace DocStore.Toml

def isSpace (c : Char) : Bool := c == ' ' || c == '\t'

/-- Characters that may stand in comments and strings as they are. -/
def isPlain (c : Char) : Bool := c == '\t' || (0x20 ≤ c.toNat && c.toNat ≠ 0x7f)

/-- The character of a code point, which must not be a surrogate. -/
def charOf? (code : Nat) : Option Char :=
  if code < 0xd800 ∨ (0xe000 ≤ code ∧ code < 0x110000) then some (Char.ofNat code) else none

def escape? : List Char → Option (Char × List Char)
  | 'b' :: rest => some ('\x08', rest)
  | 't' :: rest => some ('\t', rest)
  | 'n' :: rest => some ('\n', rest)
  | 'f' :: rest => some ('\x0c', rest)
  | 'r' :: rest => some ('\r', rest)
  | 'e' :: rest => some ('\x1b', rest)
  | '"' :: rest => some ('"', rest)
  | '\\' :: rest => some ('\\', rest)
  | 'x' :: a :: b :: rest => do some (← charOf? (← Json.unit? '0' '0' a b), rest)
  | 'u' :: a :: b :: c :: d :: rest => do some (← charOf? (← Json.unit? a b c d), rest)
  | 'U' :: a :: b :: c :: d :: e :: f :: g :: h :: rest => do
    some (← charOf? ((← Json.unit? a b c d) * 0x10000 + (← Json.unit? e f g h)), rest)
  | _ => none

def skipLines : List Char → List Char
  | '\r' :: '\n' :: rest => skipLines rest
  | c :: rest => if isSpace c || c == '\n' then skipLines rest else c :: rest
  | [] => []

/-- The contents of a string in double quotes behind the opening one, and what follows it. `fuel`
bounds the number of characters. -/
def basic? : Nat → List Char → Option (List Char × List Char)
  | 0, _ => none
  | _ + 1, [] => none
  | _ + 1, '"' :: rest => some ([], rest)
  | fuel + 1, '\\' :: rest => do
    let (c, rest) ← escape? rest
    let (contents, rest) ← basic? fuel rest
    some (c :: contents, rest)
  | fuel + 1, c :: rest =>
    if isPlain c then do
      let (contents, rest) ← basic? fuel rest
      some (c :: contents, rest)
    else none

/-- The contents of a string in single quotes, in which nothing is escaped. -/
def literal? : List Char → Option (List Char × List Char)
  | [] => none
  | '\'' :: rest => some ([], rest)
  | c :: rest =>
    if isPlain c then do
      let (contents, rest) ← literal? rest
      some (c :: contents, rest)
    else none

/-- Quotes that close a string of several lines: three of them, with up to two more in front that
belong to the string. -/
def closing? (quote : Char) (text : List Char) : Option (List Char × List Char) :=
  let run := (text.takeWhile (· == quote)).length
  if 3 ≤ run then
    let extra := min (run - 3) 2
    some (List.replicate extra quote, text.drop (extra + 3))
  else none

/-- The contents of a string in three double quotes. A backslash before a line end skips to the next
character that is not blank. -/
def basicLines? : Nat → List Char → Option (List Char × List Char)
  | 0, _ => none
  | _ + 1, [] => none
  | fuel + 1, text@(c :: rest) =>
    match closing? '"' text with
    | some found => some found
    | none =>
      if c = '\\' then
        match rest.dropWhile isSpace with
        | '\n' :: below => basicLines? fuel (skipLines below)
        | '\r' :: '\n' :: below => basicLines? fuel (skipLines below)
        | _ => do
          let (c, rest) ← escape? rest
          let (contents, rest) ← basicLines? fuel rest
          some (c :: contents, rest)
      else if isPlain c || c == '\n' || (c == '\r' && rest.head? == some '\n') then do
        let (contents, rest) ← basicLines? fuel rest
        some (c :: contents, rest)
      else none

def literalLines? : List Char → Option (List Char × List Char)
  | [] => none
  | text@(c :: rest) =>
    match closing? '\'' text with
    | some found => some found
    | none =>
      if isPlain c || c == '\n' || (c == '\r' && rest.head? == some '\n') then do
        let (contents, rest) ← literalLines? rest
        some (c :: contents, rest)
      else none

/-- A line end right behind the opening quotes does not count. -/
def afterOpening : List Char → List Char
  | '\n' :: rest => rest
  | '\r' :: '\n' :: rest => rest
  | rest => rest

/-- A quoted string in front of a text; strings of several lines only where `lines` allows them. -/
def quoted? (lines : Bool) (text : List Char) : Option (String × List Char) := do
  let (contents, rest) ← match text with
    | '"' :: '"' :: '"' :: rest =>
      if lines then basicLines? (text.length + 1) (afterOpening rest) else none
    | '\'' :: '\'' :: '\'' :: rest => if lines then literalLines? (afterOpening rest) else none
    | '"' :: rest => basic? (text.length + 1) rest
    | '\'' :: rest => literal? rest
    | _ => none
  some (String.ofList contents, rest)

end DocStore.Toml
