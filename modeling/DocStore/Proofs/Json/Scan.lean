import DocStore.Json.Printer
import DocStore.Proofs.Number.Literal
import Mathlib.Data.List.Forall2

/-! The compact text of a value is cut into the tokens of the value. Marks end a number or a word, so
every statement about a text says how the scan stands after it, before whatever follows. -/
namespace DocStore.Json

mutual

/-- The tokens of a value. -/
def tokens : Json → List Token
  | .null => [.literal .null]
  | .boolean value => [.literal (.boolean value)]
  | .number value => [.literal (.number value)]
  | .string text => [.string text]
  | .array items => .openArray :: ([Token.comma].intercalate (itemTokens items) ++ [.closeArray])
  | .object members =>
    .openObject :: ([Token.comma].intercalate (memberTokens members) ++ [.closeObject])
termination_by structural value => value

def itemTokens : List Json → List (List Token)
  | [] => []
  | item :: rest => item.tokens :: itemTokens rest
termination_by structural items => items

def memberTokens : List (String × Json) → List (List Token)
  | [] => []
  | member :: rest => oneMemberTokens member :: memberTokens rest
termination_by structural members => members

def oneMemberTokens : String × Json → List Token
  | (key, value) => .string key :: .colon :: value.tokens
termination_by structural member => member

/-- Every number inside reads back from its text. -/
def Faithful : Json → Prop
  | .number value => Number.ofChars? value.text.toList = some value
  | .array items => FaithfulItems items
  | .object members => FaithfulMembers members
  | _ => True
termination_by structural value => value

def FaithfulItems : List Json → Prop
  | [] => True
  | item :: rest => item.Faithful ∧ FaithfulItems rest
termination_by structural items => items

def FaithfulMembers : List (String × Json) → Prop
  | [] => True
  | member :: rest => FaithfulMember member ∧ FaithfulMembers rest
termination_by structural members => members

def FaithfulMember : String × Json → Prop
  | (_, value) => value.Faithful
termination_by structural member => member

end

theorem faithfulItems_iff {items : List Json} :
    FaithfulItems items ↔ ∀ item ∈ items, item.Faithful := by
  induction items with
  | nil => simp [FaithfulItems]
  | cons item rest ih => simp [FaithfulItems, ih]

theorem faithfulMembers_iff {members : List (String × Json)} :
    FaithfulMembers members ↔ ∀ member ∈ members, member.2.Faithful := by
  induction members with
  | nil => simp [FaithfulMembers]
  | cons member rest ih =>
    obtain ⟨key, value⟩ := member
    simp [FaithfulMembers, FaithfulMember, ih]

namespace Token

/-- A text is cut into some tokens, the last of which may still be open at its end. -/
def Spells (text : List Char) (tokens : List Token) : Prop :=
  ∀ before, ∃ scan seen, text.foldlM step? (.between, before) = some (scan, seen) ∧
    close? seen scan = some (tokens.reverse ++ before)

/-- A text is cut into some tokens, and nothing is open at its end. -/
def Stops (text : List Char) (tokens : List Token) : Prop :=
  ∀ before, text.foldlM step? (.between, before) = some (.between, tokens.reverse ++ before)

/-- A character is a token of its own and ends whatever is open before it. -/
def Marks (c : Char) (token : Token) : Prop :=
  isNumeric c = false ∧ c.isLower = false ∧
    ∀ before, begin? before c = some (.between, token :: before)

theorem marks_comma : Marks ',' .comma := ⟨rfl, rfl, fun _ => rfl⟩

theorem marks_colon : Marks ':' .colon := ⟨rfl, rfl, fun _ => rfl⟩

theorem marks_openArray : Marks '[' .openArray := ⟨rfl, rfl, fun _ => rfl⟩

theorem marks_closeArray : Marks ']' .closeArray := ⟨rfl, rfl, fun _ => rfl⟩

theorem marks_openObject : Marks '\x7b' .openObject := ⟨rfl, rfl, fun _ => rfl⟩

theorem marks_closeObject : Marks '\x7d' .closeObject := ⟨rfl, rfl, fun _ => rfl⟩

variable {text more : List Char} {tokens further : List Token} {c : Char} {token : Token}

theorem step?_of_closed {scan : Scan} {seen closed : List Token}
    (ends : close? seen scan = some closed) (marks : Marks c token) :
    step? (scan, seen) c = some (.between, token :: closed) := by
  obtain ⟨notNumeric, notLower, begins⟩ := marks
  cases scan with
  | between =>
    cases ends
    exact begins seen
  | number row =>
    rw [step?, if_neg (by simp [notNumeric]), ends]
    exact begins closed
  | word row =>
    rw [step?, if_neg (by simp [notLower]), ends]
    exact begins closed
  | string escaping row => cases ends

theorem Stops.spells (stops : Stops text tokens) : Spells text tokens :=
  fun before => ⟨.between, _, stops before, rfl⟩

theorem Stops.append (stops : Stops text tokens) (after : Stops more further) :
    Stops (text ++ more) (tokens ++ further) := by
  intro before
  rw [List.foldlM_append, stops before]
  simpa using after (tokens.reverse ++ before)

theorem Stops.append_spells (stops : Stops text tokens) (after : Spells more further) :
    Spells (text ++ more) (tokens ++ further) := by
  intro before
  obtain ⟨scan, seen, reached, ends⟩ := after (tokens.reverse ++ before)
  refine ⟨scan, seen, ?_, by simpa using ends⟩
  rw [List.foldlM_append, stops before]
  exact reached

theorem Spells.mark (spells : Spells text tokens) (marks : Marks c token) :
    Stops (text ++ [c]) (tokens ++ [token]) := by
  intro before
  obtain ⟨scan, seen, reached, ends⟩ := spells before
  rw [List.foldlM_append, reached]
  simp [step?_of_closed ends marks]

theorem Marks.stops (marks : Marks c token) : Stops [c] [token] := by
  intro before
  have ends : close? before .between = some before := rfl
  simp [step?_of_closed ends marks]

theorem Spells.intercalate {texts : List (List Char)} {rows : List (List Token)}
    (spell : List.Forall₂ Spells texts rows) (nonempty : texts ≠ []) :
    Spells ([','].intercalate texts) ([Token.comma].intercalate rows) := by
  induction spell with
  | nil => exact absurd rfl nonempty
  | @cons text row texts rows first rest ih =>
    cases rest with
    | nil => simpa using first
    | cons second others =>
      rw [List.intercalate_cons_cons, List.intercalate_cons_cons]
      exact (first.mark marks_comma).append_spells (ih (by simp))

theorem Stops.enclosed {texts : List (List Char)} {rows : List (List Token)} {opening closing : Char}
    {first last : Token} (opens : Marks opening first) (closes : Marks closing last)
    (spell : List.Forall₂ Spells texts rows) :
    Stops (opening :: ([','].intercalate texts ++ [closing]))
      (first :: ([Token.comma].intercalate rows ++ [last])) := by
  cases spell with
  | nil => exact opens.stops.append closes.stops
  | cons row others =>
    have inside := Spells.intercalate (.cons row others) (by simp)
    exact opens.stops.append (inside.mark closes)

private theorem begin?_number {c : Char} (starts : c.isDigit = true ∨ c = '-')
    (before : List Token) : begin? before c = some (.number [c], before) := by
  rcases starts with digit | rfl
  · have differs (other : Char) (letter : other.isDigit = false) : c ≠ other := by
      intro equal
      subst equal
      rw [digit] at letter
      cases letter
    simp [begin?, isBlank, differs ' ' rfl, differs '\t' rfl, differs '\n' rfl, differs '\r' rfl,
      differs '"' rfl, differs '[' rfl, differs ']' rfl, differs '\x7b' rfl, differs '\x7d' rfl,
      differs ',' rfl, differs ':' rfl, digit]
  · rfl

private theorem foldlM_numeric {row : List Char} (numeric : Literal.Numeric row) (seen : List Char)
    (before : List Token) :
    row.foldlM step? (.number seen, before) = some (.number (row.reverse ++ seen), before) := by
  induction row generalizing seen with
  | nil => rfl
  | cons c rest ih =>
    have first := numeric c (by simp)
    rw [List.foldlM_cons, step?, if_pos first]
    simpa using ih (fun other member => numeric other (by simp [member])) (c :: seen)

theorem spells_number {value : Number} (faithful : Number.ofChars? text = some value) :
    Spells text [.literal (.number value)] := by
  obtain ⟨literal, spelled, _⟩ := Option.bind_eq_some_iff.mp faithful
  obtain ⟨numeric, first, rest, rfl, starts⟩ := Literal.numeric_of_ofChars? spelled
  intro before
  refine ⟨.number (first :: rest).reverse, before, ?_, ?_⟩
  · have others : Literal.Numeric rest := fun c member => numeric c (List.mem_cons_of_mem _ member)
    rw [List.foldlM_cons, step?, begin?_number starts]
    simpa using foldlM_numeric others [first] before
  · simp [close?, faithful]

theorem spells_null : Spells "null".toList [.literal .null] :=
  fun before => ⟨.word "llun".toList, before, rfl, rfl⟩

theorem spells_boolean (value : Bool) :
    Spells (Json.boolean value).compact.toList [.literal (.boolean value)] := by
  cases value with
  | true => exact fun before => ⟨.word "eurt".toList, before, rfl, rfl⟩
  | false => exact fun before => ⟨.word "eslaf".toList, before, rfl, rfl⟩

/-- Inside quotes the characters are collected and nothing else happens. -/
def Quiet (text : List Char) : Prop :=
  ∀ seen before, text.foldlM step? (.string false seen, before) =
    some (.string false (text.reverse ++ seen), before)

theorem Quiet.append (first : Quiet text) (second : Quiet more) : Quiet (text ++ more) := by
  intro seen before
  rw [List.foldlM_append, first seen before]
  simpa using second (text.reverse ++ seen) before

theorem quiet_plain (quote : c ≠ '"') (backslash : c ≠ '\\') : Quiet [c] := by
  intro seen before
  simp [step?, quote, backslash]

theorem quiet_escape (c : Char) : Quiet ['\\', c] := by
  intro seen before
  simp [step?]

theorem quiet_all {text : List Char} (plain : ∀ c ∈ text, c ≠ '"' ∧ c ≠ '\\') : Quiet text := by
  induction text with
  | nil => exact fun _ _ => rfl
  | cons c rest ih =>
    obtain ⟨quote, backslash⟩ := plain c (by simp)
    exact (quiet_plain quote backslash).append (ih fun other member => plain other (by simp [member]))

end Token

theorem unquote?_plain {c : Char} (plain : c ≠ '\\') (printable : 0x20 ≤ c.toNat)
    (rest : List Char) : unquote? (c :: rest) = (unquote? rest).map (c :: ·) := by
  rw [unquote?, if_neg (by omega)]
  · cases unquote? rest <;> rfl
  · exact fun _ _ _ _ _ _ _ _ _ same => absurd same plain
  · exact fun _ _ _ _ _ same => absurd same plain
  · exact fun _ _ same => absurd same plain

theorem unquote?_short {c short : Char} (plain : c ≠ 'u') (escapes : shortEscape? c = some short)
    (rest : List Char) : unquote? ('\\' :: c :: rest) = (unquote? rest).map (short :: ·) := by
  rw [unquote?, escapes]
  · cases unquote? rest <;> rfl
  · exact fun _ _ _ _ _ _ _ _ _ same => absurd same plain
  · exact fun _ _ _ _ _ same => absurd same plain

/-- A code unit that is no half of a pair stands for itself, whatever comes after it. -/
theorem unquote?_unit {a b c d : Char} {unit : Nat} (value : unit? a b c d = some unit)
    (high : isHighUnit unit = false) (low : isLowUnit unit = false) (rest : List Char) :
    unquote? ('\\' :: 'u' :: a :: b :: c :: d :: rest) =
      (unquote? rest).map (Char.ofNat unit :: ·) := by
  by_cases pair : ∃ a' b' c' d' after, rest = '\\' :: 'u' :: a' :: b' :: c' :: d' :: after
  · obtain ⟨a', b', c', d', after, rfl⟩ := pair
    rw [unquote?, value]
    simp only [Option.bind_eq_bind, Option.bind_some, high, low, Bool.false_eq_true, if_false]
    cases unquote? ('\\' :: 'u' :: a' :: b' :: c' :: d' :: after) <;> rfl
  · rw [unquote?, value]
    · simp only [Option.bind_eq_bind, Option.bind_some, high, low, Bool.or_self, Bool.false_eq_true,
        if_false]
      cases unquote? rest <;> rfl
    · exact fun a' b' c' d' after same => pair ⟨a', b', c', d', after, same⟩

private theorem hexadecimal_digit {unit : Nat} (small : unit < 0x10) :
    (hexadecimal unit).toList = [Nat.digitChar unit] ∧
      unit? '0' '0' '0' (Nat.digitChar unit) = some unit := by
  have values : ∀ unit < 0x10, unit? '0' '0' '0' (Nat.digitChar unit) = some unit := by decide
  refine ⟨?_, values unit small⟩
  rw [hexadecimal, String.toList_ofList, Nat.toDigits_of_lt_base small]

private theorem hexadecimal_digits {unit : Nat} (least : 0x10 ≤ unit) (greatest : unit < 0x20) :
    (hexadecimal unit).toList = ['1', Nat.digitChar (unit % 0x10)] ∧
      unit? '0' '0' '1' (Nat.digitChar (unit % 0x10)) = some unit := by
  have digits : ∀ unit < 0x20, 0x10 ≤ unit →
      Nat.toDigits 16 unit = ['1', Nat.digitChar (unit % 0x10)] := by decide
  have values : ∀ unit < 0x20, 0x10 ≤ unit →
      unit? '0' '0' '1' (Nat.digitChar (unit % 0x10)) = some unit := by decide
  refine ⟨?_, values unit greatest least⟩
  rw [hexadecimal, String.toList_ofList, digits unit greatest least]

/-- The ways a character is written inside a string literal: as it is, after a backslash, or by its
code point. -/
private theorem quotedChar_cases (c : Char) :
    ((quotedChar c).toList = [c] ∧ c ≠ '"' ∧ c ≠ '\\' ∧ 0x20 ≤ c.toNat) ∨
      (∃ letter, (quotedChar c).toList = ['\\', letter] ∧ letter ≠ 'u' ∧
        shortEscape? letter = some c) ∨
      ∃ third fourth, (quotedChar c).toList = ['\\', 'u', '0', '0', third, fourth] ∧
        c.toNat < 0x20 ∧ unit? '0' '0' third fourth = some c.toNat := by
  by_cases quote : c = '"'
  · subst quote
    exact .inr (.inl ⟨'"', rfl, by decide, rfl⟩)
  by_cases backslash : c = '\\'
  · subst backslash
    exact .inr (.inl ⟨'\\', rfl, by decide, rfl⟩)
  by_cases backspace : c = '\x08'
  · subst backspace
    exact .inr (.inl ⟨'b', rfl, by decide, rfl⟩)
  by_cases tab : c = '\t'
  · subst tab
    exact .inr (.inl ⟨'t', rfl, by decide, rfl⟩)
  by_cases newline : c = '\n'
  · subst newline
    exact .inr (.inl ⟨'n', rfl, by decide, rfl⟩)
  by_cases formFeed : c = '\x0c'
  · subst formFeed
    exact .inr (.inl ⟨'f', rfl, by decide, rfl⟩)
  by_cases carriage : c = '\r'
  · subst carriage
    exact .inr (.inl ⟨'r', rfl, by decide, rfl⟩)
  rw [quotedChar, if_neg quote, if_neg backslash, if_neg backspace, if_neg tab, if_neg newline,
    if_neg formFeed, if_neg carriage]
  by_cases digit : c.toNat < 0x10
  · obtain ⟨text, value⟩ := hexadecimal_digit digit
    refine .inr (.inr ⟨'0', _, ?_, by omega, value⟩)
    rw [if_pos digit, String.toList_append, text]
    rfl
  by_cases small : c.toNat < 0x20
  · obtain ⟨text, value⟩ := hexadecimal_digits (by omega) small
    refine .inr (.inr ⟨'1', _, ?_, small, value⟩)
    rw [if_neg digit, if_pos small, String.toList_append, text]
    rfl
  · exact .inl ⟨by rw [if_neg digit, if_neg small]; simp, quote, backslash, by omega⟩

theorem unquote?_quotedChar (c : Char) (rest : List Char) :
    unquote? ((quotedChar c).toList ++ rest) = (unquote? rest).map (c :: ·) := by
  rcases quotedChar_cases c with
    ⟨text, _, plain, printable⟩ | ⟨letter, text, plain, escapes⟩ | ⟨third, fourth, text, small, value⟩
  · rw [text]
    exact unquote?_plain plain printable rest
  · rw [text]
    exact unquote?_short plain escapes rest
  · have high : isHighUnit c.toNat = false := by simp [isHighUnit]; omega
    have low : isLowUnit c.toNat = false := by simp [isLowUnit]; omega
    rw [text]
    refine (unquote?_unit value high low rest).trans ?_
    rw [Char.ofNat_toNat]

private theorem plain_of_unit? {a b c d : Char} {unit : Nat} (value : unit? a b c d = some unit) :
    (c ≠ '"' ∧ c ≠ '\\') ∧ d ≠ '"' ∧ d ≠ '\\' := by
  simp only [unit?, Option.bind_eq_bind, Option.bind_eq_some_iff] at value
  obtain ⟨_, _, _, _, _, third, _, fourth, _⟩ := value
  have plain {digit : Char} {size : Nat} (found : hexValue? digit = some size) :
      digit ≠ '"' ∧ digit ≠ '\\' := by
    constructor
    · intro equal
      subst equal
      cases found
    · intro equal
      subst equal
      cases found
  exact ⟨plain third, plain fourth⟩

theorem quiet_quotedChar (c : Char) : Token.Quiet (quotedChar c).toList := by
  rcases quotedChar_cases c with
    ⟨text, quote, backslash, _⟩ | ⟨letter, text, _, _⟩ | ⟨third, fourth, text, _, value⟩
  · rw [text]
    exact Token.quiet_plain quote backslash
  · rw [text]
    exact Token.quiet_escape letter
  · rw [text]
    obtain ⟨plainThird, plainFourth⟩ := plain_of_unit? value
    refine (Token.quiet_escape 'u').append (Token.quiet_all ?_)
    simp only [List.mem_cons, List.not_mem_nil, or_false]
    intro digit given
    rcases given with rfl | rfl | rfl | rfl
    · decide
    · decide
    · exact plainThird
    · exact plainFourth

def quotedBody (text : List Char) : List Char := text.flatMap fun c => (quotedChar c).toList

theorem quoted_toList (text : String) :
    (quoted text).toList = '"' :: (quotedBody text.toList ++ ['"']) := by
  rw [quoted, String.toList_append, String.toList_append, String.toList_join, List.flatMap_map]
  rfl

theorem unquote?_quotedBody (text : List Char) : unquote? (quotedBody text) = some text := by
  induction text with
  | nil => rfl
  | cons c rest ih =>
    rw [quotedBody, List.flatMap_cons, unquote?_quotedChar]
    rw [quotedBody] at ih
    rw [ih]
    rfl

theorem quiet_quotedBody (text : List Char) : Token.Quiet (quotedBody text) := by
  induction text with
  | nil => exact fun _ _ => rfl
  | cons c rest ih => exact (quiet_quotedChar c).append ih

theorem stops_quoted (text : String) : Token.Stops (quoted text).toList [.string text] := by
  intro before
  have opened : Token.step? (.between, before) '"' = some (.string false [], before) := rfl
  rw [quoted_toList, List.foldlM_cons, opened]
  simp only [Option.bind_eq_bind, Option.bind_some, List.foldlM_append,
    quiet_quotedBody text.toList [] before]
  simp [Token.step?, unquote?_quotedBody]

mutual

/-- The compact text of a value is cut into its tokens. -/
theorem spells_compact : ∀ value : Json, value.Faithful →
    Token.Spells value.compact.toList value.tokens
  | .null, _ => Token.spells_null
  | .boolean value, _ => Token.spells_boolean value
  | .number _, faithful => Token.spells_number faithful
  | .string text, _ => (stops_quoted text).spells
  | .array items, faithful => by
    rw [compact, tokens, String.toList_append, String.toList_append, String.toList_intercalate]
    exact (Token.Stops.enclosed Token.marks_openArray Token.marks_closeArray
      (spell_compactItems items faithful)).spells
  | .object members, faithful => by
    rw [compact, tokens, String.toList_append, String.toList_append, String.toList_intercalate]
    exact (Token.Stops.enclosed Token.marks_openObject Token.marks_closeObject
      (spell_compactMembers members faithful)).spells

theorem spell_compactItems : ∀ items : List Json, FaithfulItems items →
    List.Forall₂ Token.Spells ((compactItems items).map String.toList) (itemTokens items)
  | [], _ => .nil
  | item :: rest, faithful =>
    .cons (spells_compact item faithful.1) (spell_compactItems rest faithful.2)

theorem spell_compactMembers : ∀ members : List (String × Json), FaithfulMembers members →
    List.Forall₂ Token.Spells ((compactMembers members).map String.toList) (memberTokens members)
  | [], _ => .nil
  | member :: rest, faithful =>
    .cons (spells_compactMember member faithful.1) (spell_compactMembers rest faithful.2)

theorem spells_compactMember : ∀ member : String × Json, FaithfulMember member →
    Token.Spells (compactMember member).toList (oneMemberTokens member)
  | (key, value), faithful => by
    rw [compactMember, oneMemberTokens, String.toList_append, String.toList_append]
    exact ((stops_quoted key).append Token.marks_colon.stops).append_spells
      (spells_compact value faithful)

end

theorem ofChars?_compact {value : Json} (faithful : value.Faithful) :
    Token.ofChars? value.compact.toList = some value.tokens := by
  obtain ⟨scan, seen, reached, ends⟩ := spells_compact value faithful []
  rw [Token.ofChars?, reached]
  simp [ends]

end DocStore.Json
