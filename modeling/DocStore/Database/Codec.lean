import DocStore.Document

namespace DocStore

/-- A pair of translations between a type and its stored texts. Writing may fail with a reason. -/
structure Codec (α : Type) where
  encode : α → Except String String
  decode? : String → Option α

namespace Codec

def json : Codec Json where
  encode value := .ok value.compact
  decode? := Json.read?

def identifier {ι : Type} [Identifier ι] : Codec ι where
  encode id := .ok (Identifier.toJson id).compact
  decode? text := do (Identifier.ofJson (← Json.read? text)).toOption

def indexValue : Codec IndexValue where
  encode value := .ok value.toJson.compact
  decode? text := do IndexValue.ofStored? (← Json.read? text)

def idSet {ι : Type} [DecidableEq ι] [Identifier ι] : Codec (IdSet ι) where
  encode set := .ok set.toJson.compact
  decode? text := do (IdSet.ofJson (← Json.read? text)).toOption

def record {α ι : Type} [Record α ι] : Codec α where
  encode value := (Record.toJson value).map Json.compact
  decode? text := do Record.ofStored? (← Json.readRaw? Json.nestingLimit text)

end Codec

end DocStore
