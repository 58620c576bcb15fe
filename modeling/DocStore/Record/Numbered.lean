import DocStore.Record

namespace DocStore

/-- `body` holds all members but `id`, sorted by key. -/
structure Numbered where
  id : Int64
  body : List (String × Json)
deriving DecidableEq

namespace Numbered

def ofJson? : Json → Option Numbered
  | .object members => do
    let id ← (Identifier.ofJson (← Json.lookup? "id" members)).toOption
    some ⟨id, Json.eraseMember "id" members⟩
  | _ => none

def toJson (record : Numbered) : Except String Json :=
  match Json.lookup? "poison" record.body with
  | some (.string reason) => .error reason
  | _ => .ok (.object (Json.insertMember "id" (Identifier.toJson record.id) record.body))

end Numbered

instance : Record Numbered Int64 where
  idMember := "id"
  id := Numbered.id
  toJson := Numbered.toJson
  ofStored? value := Numbered.ofJson? value.sorted

end DocStore
