import DocStore.IndexValue
import DocStore.Record

namespace DocStore

/-- `body` holds all members but `id`, sorted by key. -/
structure Document where
  id : String
  body : List (String × Json)
deriving DecidableEq, Repr

inductive DocumentError where
  | notObject
  | structuredId (found : Json)
deriving DecidableEq, Repr

def DocumentError.message : DocumentError → String
  | .notObject => "a document must be a JSON object"
  | .structuredId found => "`id` must be a string, number or boolean, found " ++ found.compact

namespace Document

/-- Accepts any object. Numbers and truth values as `id` are kept as their index value text, which is
also what a query for them looks up; `fresh` becomes the id of a document without one. -/
def ofJson (fresh : String) : Json → Except DocumentError Document
  | .object members =>
    let body := Json.eraseMember "id" members
    match Json.lookup? "id" members with
    | none | some .null => .ok ⟨fresh, body⟩
    | some (.string contents) => .ok ⟨contents, body⟩
    | some (.number value) => .ok ⟨(IndexValue.ofJson (.number value)).display, body⟩
    | some (.boolean value) => .ok ⟨(IndexValue.ofJson (.boolean value)).display, body⟩
    | some found => .error (.structuredId found)
  | _ => .error .notObject

def toJson (document : Document) : Json :=
  .object (Json.insertMember "id" (.string document.id) document.body)

/-- Reads an object as it stands in a stored text. It has exactly one `id`, a string; other keys may
be repeated, and the last one counts. -/
def ofStored? : Json → Option Document
  | .object members =>
    match members.filter fun member => member.1 == "id" with
    | [(_, .string id)] =>
      some ⟨id, Json.sortMembers (Json.sortedMembers (Json.eraseMember "id" members))⟩
    | _ => none
  | _ => none

end Document

instance : Record Document String where
  idMember := "id"
  id := Document.id
  toJson document := .ok document.toJson
  ofStored? := Document.ofStored?

end DocStore
