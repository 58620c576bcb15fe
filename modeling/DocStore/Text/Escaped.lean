import DocStore.Text.Unprintable

namespace DocStore

/-- Code point in lower-case hexadecimal without padding. -/
def hexadecimal (value : Nat) : String := String.ofList (Nat.toDigits 16 value)

/-- A character inside double quotes. Quote and backslash get a backslash, four controls have short
names, and every other unprintable character is written by its code point. -/
def escapedChar (c : Char) : String :=
  if c = '"' then "\\\""
  else if c = '\\' then "\\\\"
  else if c = '\n' then "\\n"
  else if c = '\r' then "\\r"
  else if c = '\t' then "\\t"
  else if c = '\x00' then "\\0"
  else if isUnprintable c then "\\u\x7b" ++ hexadecimal c.toNat ++ "\x7d"
  else c.toString

def escaped (text : String) : String :=
  "\"" ++ String.join (text.toList.map escapedChar) ++ "\""

end DocStore
