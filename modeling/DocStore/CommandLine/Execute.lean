import DocStore.CommandLine.Arguments
import DocStore.Settings.Basic

namespace DocStore.CommandLine

abbrev DocumentCollection := Collection Database Nat Document String

/-- Documents are indexed by the members at these dotted paths. -/
def memberFields (paths : List String) : List (IndexedField Document) :=
  paths.map fun path => IndexedField.member (Path.parse path)

def readJson (text : String) : Except AppError Json :=
  match Json.read? text with
  | some value => .ok value
  | none => .error .malformedJson

def readDocument (fresh text : String) : Except AppError Document := do
  let value ← readJson text
  (Document.ofJson fresh value).mapError fun cause => .invalidDocument cause.message

def changeReport (id change : String) (done : Bool) : Json :=
  Json.ofMembers [("id", .string id), (change, .boolean done)]

def optionalDocument : Option Document → Json
  | some document => document.toJson
  | none => .null

/-- Runs a command and gives its output. `fresh` is the id for a document that comes without one. -/
def execute (collection : DocumentCollection) (fresh : String) : Command → Action AppError Database Json
  | .insert text => do
    let document ← Action.ofExcept (readDocument fresh text)
    let inserted ← (collection.insert document).mapError .query
    pure (changeReport document.id "inserted" inserted)
  | .remove id => do
    let removed ← (collection.remove id).mapError .query
    pure (changeReport id "removed" removed)
  | .get id => do
    let wanted := Expr.atom .equal (Path.parse "id") (.string id)
    let found ← (collection.findOne .empty wanted).mapError .query
    pure (optionalDocument found)
  | .find text => do
    let filter ← Action.ofExcept (readJson text)
    let found ← (collection.findFilter filter).mapError .query
    pure (.array (found.map Document.toJson))
  | .findOne text => do
    let filter ← Action.ofExcept (readJson text)
    let expr ← Action.ofExcept ((Collection.filterExpr filter).mapError .query)
    let found ← (collection.findOne .empty expr).mapError .query
    pure (optionalDocument found)
  | .keys => do
    let keys ← (collection.records.keys).mapError .store
    pure (.array ((keys.mergeSort fun a b => decide (a ≤ b)).map .string))

/-- Opens the collection the settings describe and runs a command on it. -/
def perform (settings : CollectionSettings) (fresh : String) (command : Command) :
    Action AppError Database Json := do
  let collection ← (Collection.openStored settings.name (memberFields settings.indexes)).mapError
    AppError.ofOpen
  execute collection fresh command

end DocStore.CommandLine
