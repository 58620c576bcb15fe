import DocStore.Json.Basic
import DocStore.Text.Escaped

namespace DocStore.Json

/-- A character inside a string literal. Only quotes, backslashes and the controls below U+0020 are
escaped. -/
def quotedChar (c : Char) : String :=
  if c = '"' then "\\\""
  else if c = '\\' then "\\\\"
  else if c = '\x08' then "\\b"
  else if c = '\t' then "\\t"
  else if c = '\n' then "\\n"
  else if c = '\x0c' then "\\f"
  else if c = '\r' then "\\r"
  else if c.toNat < 0x10 then "\\u000" ++ hexadecimal c.toNat
  else if c.toNat < 0x20 then "\\u00" ++ hexadecimal c.toNat
  else c.toString

def quoted (text : String) : String := "\"" ++ String.join (text.toList.map quotedChar) ++ "\""

mutual

def compact : Json → String
  | .null => "null"
  | .boolean value => if value then "true" else "false"
  | .number value => value.text
  | .string text => quoted text
  | .array items => "[" ++ ",".intercalate (compactItems items) ++ "]"
  | .object members => "\x7b" ++ ",".intercalate (compactMembers members) ++ "\x7d"
termination_by structural value => value

def compactItems : List Json → List String
  | [] => []
  | item :: rest => item.compact :: compactItems rest
termination_by structural items => items

def compactMembers : List (String × Json) → List String
  | [] => []
  | member :: rest => compactMember member :: compactMembers rest
termination_by structural members => members

def compactMember : String × Json → String
  | (key, value) => quoted key ++ ":" ++ value.compact
termination_by structural member => member

end

/-- Rows between two brackets, each on a line of its own below `indent`; nothing between them when
there are no rows. -/
def block (opening closing indent : String) (rows : List String) : String :=
  if rows.isEmpty then opening ++ closing
  else
    opening ++ "\n" ++ ",\n".intercalate (rows.map fun row => indent ++ "  " ++ row) ++
      "\n" ++ indent ++ closing

mutual

/-- The pretty text of a value whose first line starts at `indent`. -/
def prettyAt (indent : String) : Json → String
  | .array items => block "[" "]" indent (prettyItems (indent ++ "  ") items)
  | .object members => block "\x7b" "\x7d" indent (prettyMembers (indent ++ "  ") members)
  | value => value.compact
termination_by structural value => value

def prettyItems (indent : String) : List Json → List String
  | [] => []
  | item :: rest => item.prettyAt indent :: prettyItems indent rest
termination_by structural items => items

def prettyMembers (indent : String) : List (String × Json) → List String
  | [] => []
  | member :: rest => prettyMember indent member :: prettyMembers indent rest
termination_by structural members => members

def prettyMember (indent : String) : String × Json → String
  | (key, value) => quoted key ++ ": " ++ value.prettyAt indent
termination_by structural member => member

end

def pretty (value : Json) : String := value.prettyAt ""

end DocStore.Json
