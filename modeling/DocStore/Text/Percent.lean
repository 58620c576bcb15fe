import DocStore.Json.Token

namespace DocStore

/-- The bytes of a text with percent escapes. A percent sign without two digits stands for itself. -/
def percentBytes : List Char → List UInt8
  | '%' :: a :: b :: rest =>
    match Json.hexValue? a, Json.hexValue? b with
    | some high, some low => UInt8.ofNat (high * 16 + low) :: percentBytes rest
    | _, _ => "%".toUTF8.toList ++ percentBytes (a :: b :: rest)
  | c :: rest => c.toString.toUTF8.toList ++ percentBytes rest
  | [] => []

def percentDecoded? (text : List Char) : Option String :=
  String.fromUTF8? ⟨(percentBytes text).toArray⟩

/-- The text behind a piece of a form, in which a plus sign stands for a blank. -/
def formDecoded? (text : List Char) : Option String :=
  percentDecoded? (text.map fun c => if c = '+' then ' ' else c)

end DocStore
