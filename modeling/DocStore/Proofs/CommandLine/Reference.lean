import DocStore.CommandLine.Execute
import DocStore.Proofs.Query.Answerable

/-! What the commands are to answer: those of a map from the texts of ids to JSON objects. It knows of no
tables, indexes or transactions; a query looks at every object. -/
namespace DocStore.CommandLine

/-- The objects by the texts of their ids. -/
abbrev Objects := Table String Json

/-- The text of an id, which for a number or truth value is the one it is kept as. -/
def idText? : Json → Option String
  | .string contents => some contents
  | value => value.shownText?

/-- The text of the id in an object. An object without an id gets a fresh one. -/
def readId (fresh : String) : Option Json → Except AppError String
  | none | some .null => .ok fresh
  | some value =>
    match idText? value with
    | some id => .ok id
    | none =>
      .error (.invalidDocument ("`id` must be a string, number or boolean, found " ++ value.compact))

/-- The object that is to be inserted for a text, with the text of its id for its id. -/
def readObject (fresh text : String) : Except AppError (String × Json) :=
  match Json.read? text with
  | none => .error .malformedJson
  | some (.object members) =>
    (readId fresh (Json.lookup? "id" members)).map fun id =>
      (id, .object (Json.insertMember "id" (.string id) members))
  | some _ => .error (.invalidDocument "a document must be a JSON object")

/-- Why the comparisons of fields with constants in an expression cannot be answered, for the leftmost of
them that cannot be. -/
def refusal? : Expr → Option Unsupported
  | .compare .equal (.member path) (.literal value) =>
    if path.segments = [] then some (.notMember (.member path))
    else if path.segments = ["id"] ∧ idText? value = none then
      some (.badIdentifier value "id" (.wrongType value "a string"))
    else none
  | .both left right => (refusal? left).or (refusal? right)
  | .either left right => (refusal? left).or (refusal? right)
  | expr => some (.notAnswerable expr)

/-- Refuses a filter that cannot be answered from the indexes at some paths. -/
def checkFilter (paths : List String) (filter : Json) : Except QueryError Unit :=
  match Filter.parse filter with
  | .error cause => .error (.invalidFilter cause.message)
  | .ok expr =>
    match refusal? expr with
    | some cause => .error (.unsupportedPredicate cause.message)
    | none =>
      match (expr.fieldPaths "id").find? fun path => decide (path.indexName ∉ paths.map IndexName.parse) with
      | some path => .error (.unknownIndex path.indexName)
      | none => .ok ()

def readFilter (paths : List String) (text : String) : Except AppError Json :=
  match Json.read? text with
  | none => .error .malformedJson
  | some filter => ((checkFilter paths filter).mapError .query).map fun _ => filter

def matching (objects : Objects) (filter : Json) : List Json :=
  objects.values.filter fun object => Filter.meets object filter

/-- The only object found, or null if there is none. -/
def onlyObject : List Json → Except AppError Json
  | [] => .ok .null
  | [object] => .ok object
  | objects => .error (.query (.multipleResults objects.length))

/-- What a command is to answer and to leave of the objects. `fresh` is the id for an object that comes
without one. -/
def serve (paths : List String) (fresh : String) (command : Command) (objects : Objects) :
    Except AppError Json × Objects :=
  match command with
  | .insert text =>
    match readObject fresh text with
    | .error cause => (.error cause, objects)
    | .ok (id, object) =>
      if objects.contains id then
        (.ok (.object [("id", .string id), ("inserted", .boolean false)]), objects)
      else
        (.ok (.object [("id", .string id), ("inserted", .boolean true)]), objects.put id object)
  | .remove id =>
    (.ok (.object [("id", .string id), ("removed", .boolean (objects.contains id))]), objects.erase id)
  | .get id => (.ok ((objects.get? id).getD .null), objects)
  | .find text => ((readFilter paths text).map fun filter => .array (matching objects filter), objects)
  | .findOne text =>
    ((readFilter paths text).bind fun filter => onlyObject (matching objects filter), objects)
  | .keys => (.ok (.array ((objects.keys.mergeSort fun a b => decide (a ≤ b)).map .string)), objects)

theorem serve_of_error {paths : List String} {fresh : String} {command : Command}
    {objects next : Objects} {error : AppError}
    (failed : serve paths fresh command objects = (.error error, next)) : next = objects := by
  cases command with
  | insert text =>
    rw [serve] at failed
    split at failed
    case h_1 =>
      cases failed
      rfl
    case h_2 => split at failed <;> cases failed
  | remove id => cases failed
  | get id => cases failed
  | find text => exact (congrArg Prod.snd failed).symm
  | findOne text => exact (congrArg Prod.snd failed).symm
  | keys => cases failed

variable {σ τ : Type}

/-- Runs some commands one after the other, each with the id that a new document would get, and keeps
what each of them answers. -/
def session (run : String → Command → Action AppError σ Json) :
    List (String × Command) → σ → List (Command × Except AppError Json) × σ
  | [], world => ([], world)
  | (fresh, command) :: rest, world =>
    let (answer, next) := run fresh command world
    let (answers, last) := session run rest next
    ((command, answer) :: answers, last)

/-- Two answers to a command are the same, up to the order in which objects are found. -/
def SameAnswer (command : Command) (answer expected : Except AppError Json) : Prop :=
  answer = expected ∨ ∃ filter found others, command = .find filter ∧
    answer = .ok (.array found) ∧ expected = .ok (.array others) ∧ found.Perm others

theorem SameAnswer.error {command : Command} {error : AppError} {expected : Except AppError Json}
    (same : SameAnswer command (.error error) expected) : expected = .error error := by
  rcases same with same | ⟨_, _, _, _, failed, _, _⟩
  · exact same.symm
  · cases failed

/-- If every command is answered alike by two and keeps what relates their worlds, so is every session
of commands. -/
theorem session_same {run : String → Command → Action AppError σ Json}
    {other : String → Command → Action AppError τ Json} {Admitted : Command → Prop}
    {Related : σ → τ → Prop}
    (step : ∀ fresh command world model, Admitted command → Related world model →
      SameAnswer command (run fresh command world).1 (other fresh command model).1 ∧
        Related (run fresh command world).2 (other fresh command model).2)
    {calls : List (String × Command)} (admitted : ∀ call ∈ calls, Admitted call.2) {world : σ}
    {model : τ} (related : Related world model) :
    List.Forall₂ (fun found expected => found.1 = expected.1 ∧
        SameAnswer found.1 found.2 expected.2)
      (session run calls world).1 (session other calls model).1 ∧
      Related (session run calls world).2 (session other calls model).2 := by
  induction calls generalizing world model with
  | nil => exact ⟨.nil, related⟩
  | cons call rest ih =>
    obtain ⟨fresh, command⟩ := call
    obtain ⟨same, further⟩ :=
      step fresh command world model (admitted (fresh, command) (by simp)) related
    obtain ⟨others, last⟩ := ih (fun call member => admitted call (by simp [member])) further
    exact ⟨.cons ⟨rfl, same⟩ others, last⟩

end DocStore.CommandLine
