import DocStore.Identifier
import DocStore.Json.Reader

namespace DocStore

/-- Records of type `α` identified by an `ι`. -/
class Record (α : Type) (ι : outParam Type) where
  idMember : String
  id : α → ι
  /-- The written form; a record may refuse to be written and say why. -/
  toJson : α → Except String Json
  /-- Reads a written form whose members stand as in the stored text. -/
  ofStored? : Json → Option α

end DocStore
