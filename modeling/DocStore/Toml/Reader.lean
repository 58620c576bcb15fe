import DocStore.Toml.Quoted
import DocStore.Toml.Scalar

/-! Reading TOML texts: statements line by line, values by recursive descent. `fuel` is the number of
characters left, of which every step takes at least one; `depth` is how many arrays and inline tables
may still be opened inside each other. -/
namespace DocStore.Toml

def skipSpaces (text : List Char) : List Char := text.dropWhile isSpace

/-- Skips blanks, line ends and comments. -/
def skipBlank : Bool → List Char → Option (List Char)
  | _, [] => some []
  | _, '\r' :: '\n' :: rest => skipBlank false rest
  | commented, c :: rest =>
    if c = '\n' then skipBlank false rest
    else if commented then if isPlain c then skipBlank true rest else none
    else if c = '#' then skipBlank true rest
    else if isSpace c then skipBlank false rest
    else some (c :: rest)

/-- What follows the end of a line, behind blanks and a comment. -/
def lineEnd? : Bool → List Char → Option (List Char)
  | _, [] => some []
  | _, '\r' :: '\n' :: rest => some rest
  | commented, c :: rest =>
    if c = '\n' then some rest
    else if commented then if isPlain c then lineEnd? true rest else none
    else if c = '#' then lineEnd? true rest
    else if isSpace c then lineEnd? false rest
    else none

/-- The most keys that may be joined by dots. -/
def pathLimit : Nat := 80

def isBareKeyChar (c : Char) : Bool := c.isAlphanum || c == '_' || c == '-'

def simpleKey? (text : List Char) : Option (String × List Char) :=
  match text with
  | '"' :: _ | '\'' :: _ => quoted? false text
  | _ =>
    let bare := text.takeWhile isBareKeyChar
    if bare.isEmpty then none else some (String.ofList bare, text.dropWhile isBareKeyChar)

/-- At most `count` keys joined by dots, and what follows them and the blanks behind. -/
def keys? : Nat → List Char → Option (List String × List Char)
  | 0, _ => none
  | count + 1, text => do
    let (first, rest) ← simpleKey? (skipSpaces text)
    match skipSpaces rest with
    | '.' :: rest => do
      let (others, rest) ← keys? count rest
      some (first :: others, rest)
    | rest => some ([first], rest)

def key? (text : List Char) : Option (List String × List Char) := keys? pathLimit text

/-- Characters at which a bare value ends. -/
def endsBare (c : Char) : Bool := isSpace c || "=,[]\x7b\x7d#\r\n".toList.contains c

/-- Whether a bare value goes on in a text that follows blanks. -/
def resumesBare (text : List Char) : Bool :=
  text.head?.any fun c => !(endsBare c || ".\"'".toList.contains c)

/-- The characters of a bare value in front of a text, with the blanks inside it, and what follows. -/
def bareText : List Char → List Char × List Char
  | [] => ([], [])
  | c :: rest =>
    if endsBare c && !(isSpace c && resumesBare (skipSpaces rest)) then ([], c :: rest)
    else
      let (more, rest) := bareText rest
      (c :: more, rest)

def bare? (text : List Char) : Option (Toml × List Char) :=
  let (bare, rest) := bareText text
  (scalar? bare).map (·, rest)

mutual

def value? : Nat → Nat → List Char → Option (Toml × List Char)
  | 0, _, _ => none
  | fuel + 1, depth, text =>
    match text with
    | '"' :: _ | '\'' :: _ => do
      let (contents, rest) ← quoted? true text
      some (.string contents, rest)
    | '[' :: rest => if depth = 0 then none else items? fuel (depth - 1) [] rest
    | '\x7b' :: rest => if depth = 0 then none else members? fuel (depth - 1) [] rest
    | _ => bare? text

/-- The items of an array up to its end; the ones read so far stand last first. -/
def items? : Nat → Nat → List Toml → List Char → Option (Toml × List Char)
  | 0, _, _, _ => none
  | fuel + 1, depth, items, text => do
    match ← skipBlank false text with
    | ']' :: rest => some (.array items.reverse, rest)
    | text => do
      let (item, rest) ← value? fuel depth text
      match ← skipBlank false rest with
      | ',' :: rest => items? fuel depth (item :: items) rest
      | ']' :: rest => some (.array (item :: items).reverse, rest)
      | _ => none

/-- The entries of an inline table up to its end. Between keys, signs and values lines may end. -/
def members? : Nat → Nat → Entries → List Char → Option (Toml × List Char)
  | 0, _, _, _ => none
  | fuel + 1, depth, entries, text => do
    match ← skipBlank false text with
    | '\x7d' :: rest => some (.table .inline entries, rest)
    | text =>
      let (path, rest) ← key? text
      match ← skipBlank false rest with
      | '=' :: rest => do
        let (value, rest) ← value? fuel depth (← skipBlank false rest)
        let entries ← assign value path entries
        match ← skipBlank false rest with
        | ',' :: rest => members? fuel depth entries rest
        | '\x7d' :: rest => some (.table .inline entries, rest)
        | _ => none
      | _ => none

end

def nestingLimit : Nat := 80

def statement? (text : List Char) : Option (Statement × List Char) :=
  match text with
  | '[' :: '[' :: rest => do
    match ← key? rest with
    | (path, ']' :: ']' :: rest) => some (.element path, ← lineEnd? false rest)
    | _ => none
  | '[' :: rest => do
    match ← key? rest with
    | (path, ']' :: rest) => some (.header path, ← lineEnd? false rest)
    | _ => none
  | text => do
    match ← key? text with
    | (path, '=' :: rest) => do
      let (value, rest) ← value? (text.length + 1) nestingLimit (skipSpaces rest)
      some (.entry path value, ← lineEnd? false rest)
    | _ => none

def statements? : Nat → List Char → Option (List Statement)
  | 0, _ => none
  | fuel + 1, text => do
    match ← skipBlank false text with
    | [] => some []
    | text => do
      let (statement, rest) ← statement? text
      some (statement :: (← statements? fuel rest))

/-- The document a text denotes. A byte order mark in front does not count. -/
def read? (text : String) : Option Toml := do
  let chars := match text.toList with
    | '\ufeff' :: rest => rest
    | chars => chars
  ofStatements? (← statements? (chars.length + 1) chars)

end DocStore.Toml
