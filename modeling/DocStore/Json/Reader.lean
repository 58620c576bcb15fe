import DocStore.Json.Token

namespace DocStore.Json

/-- An open array or object, its finished parts last first. -/
inductive Frame where
  | array (items : List Json)
  /-- An object whose member `key` is waiting for its value. -/
  | member (members : List (String × Json)) (key : String)

/-- What may come next. -/
inductive Progress where
  | needValue (stack : List Frame)
  /-- The first item of an array, or its end. -/
  | needItem (stack : List Frame)
  /-- The first key of an object, or its end. -/
  | needMember (stack : List Frame)
  | needKey (members : List (String × Json)) (stack : List Frame)
  | needColon (members : List (String × Json)) (key : String) (stack : List Frame)
  /-- A comma or the end of the array. -/
  | pastItem (items : List Json) (stack : List Frame)
  /-- A comma or the end of the object. -/
  | pastMember (members : List (String × Json)) (stack : List Frame)
  | done (value : Json)

namespace Progress

/-- Hands a finished value to the innermost open array or object. -/
def give (value : Json) : List Frame → Progress
  | [] => .done value
  | .array items :: stack => .pastItem (value :: items) stack
  | .member members key :: stack => .pastMember ((key, value) :: members) stack

/-- Starts a value. An array or object may be opened inside fewer than `limit` others. -/
def start? (limit : Nat) (stack : List Frame) : Token → Option Progress
  | .openArray => if stack.length < limit then some (.needItem stack) else none
  | .openObject => if stack.length < limit then some (.needMember stack) else none
  | .string text => some (give (.string text) stack)
  | .literal value => some (give value stack)
  | _ => none

def step? (limit : Nat) : Progress → Token → Option Progress
  | .needValue stack, token => start? limit stack token
  | .needItem stack, .closeArray => some (give (.array []) stack)
  | .needItem stack, token => start? limit (.array [] :: stack) token
  | .pastItem items stack, .comma => some (.needValue (.array items :: stack))
  | .pastItem items stack, .closeArray => some (give (.array items.reverse) stack)
  | .needMember stack, .string key => some (.needColon [] key stack)
  | .needMember stack, .closeObject => some (give (.object []) stack)
  | .needKey members stack, .string key => some (.needColon members key stack)
  | .needColon members key stack, .colon => some (.needValue (.member members key :: stack))
  | .pastMember members stack, .comma => some (.needKey members stack)
  | .pastMember members stack, .closeObject => some (give (.object members.reverse) stack)
  | _, _ => none

def result? : Progress → Option Json
  | .done value => some value
  | _ => none

end Progress

/-- The value a text denotes, the members of its objects as they stand in the text. -/
def readRaw? (limit : Nat) (text : String) : Option Json := do
  let tokens ← Token.ofChars? text.toList
  (← tokens.foldlM (Progress.step? limit) (.needValue [])).result?

def nestingLimit : Nat := 127

/-- The value a text denotes. Of members with the same key the last one counts. -/
def read? (text : String) : Option Json := (readRaw? nestingLimit text).map sorted

end DocStore.Json
