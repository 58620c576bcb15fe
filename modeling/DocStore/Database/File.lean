import DocStore.Database.Basic
import DocStore.Json.Printer
import DocStore.Json.Reader

namespace DocStore.Database

private def rowsJson (rows : Rows) : Json :=
  .array (rows.rows.map fun row => .array [.string row.1, .string row.2])

def toText (db : Database) : String :=
  let tables := db.committed.contents.rows.map fun entry =>
    Json.array [.string entry.1, rowsJson entry.2]
  (Json.array tables).compact ++ "\n"

private def row? : Json → Option (String × String)
  | .array [.string key, .string value] => some (key, value)
  | _ => none

private def rows? : Json → Option Rows
  | .array items => do
    let rows ← items.mapM row?
    some (rows.foldl (fun table row => table.put row.1 row.2) .empty)
  | _ => none

private def table? : Json → Option (String × Rows)
  | .array [.string name, rows] => do some (name, ← rows? rows)
  | _ => none

def ofText? (text : String) : Option Database := do
  match ← Json.read? text with
  | .array items => do
    let tables ← items.mapM table?
    let contents := tables.foldl (fun contents table => contents.put table.1 table.2) .empty
    some { empty with committed := ⟨contents, 0⟩ }
  | _ => none

def toBytes (db : Database) : ByteArray := db.toText.toUTF8

/-- The database kept in a file; an empty file is an empty database. -/
def ofBytes? (bytes : ByteArray) : Option Database :=
  if bytes.isEmpty then some empty else String.fromUTF8? bytes >>= ofText?

end DocStore.Database
