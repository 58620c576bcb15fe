import DocStore.Proofs.Collection.Idle
import DocStore.Proofs.CommandLine.Reference
import DocStore.Proofs.Document.Identity
import DocStore.Proofs.Query.Grammar

namespace DocStore.CommandLine

open Database (foldName)

/-- The collection of documents called `name`, with indexes at some paths. -/
abbrev documents (name : String) (paths : List String) : DocumentCollection :=
  Collection.stored name (memberFields paths)

/-- A database holds some objects as documents: no transaction is open, and the current document of each
id is written as the object of that id. -/
def Holds (name : String) (paths : List String) (db : Database) (objects : Objects) : Prop :=
  ∃ changes : List (Change Document String), Collection.Idle name (memberFields paths) changes db ∧
    ∀ id, objects.get? id = (Change.current? id changes).map Document.toJson

/-- The documents that satisfy the filter of a text. -/
def search (collection : DocumentCollection) (text : String) :
    Action AppError Database (List Document) := do
  let filter ← Action.ofExcept (readJson text)
  (collection.findFilter filter).mapError .query

section

variable {collection : DocumentCollection} {fresh text : String} {db next : Database}

theorem execute_find : execute collection fresh (.find text) =
    search collection text >>= fun found => pure (.array (found.map Document.toJson)) := by
  rw [search, bind_assoc]
  rfl

private theorem onlyObject_map (found : List Document) :
    onlyObject (found.map Document.toJson) =
      ((Collection.onlyRecord found).mapError .query).map optionalDocument := by
  match found with
  | [] => rfl
  | [_] => rfl
  | first :: second :: rest =>
    have size : ((first :: second :: rest).map Document.toJson).length =
        (first :: second :: rest).length := List.length_map ..
    exact congrArg (fun count => Except.error (AppError.query (.multipleResults count))) size

private theorem findOne_optional (expr : Expr) :
    ((collection.findOne .empty expr).mapError AppError.query >>=
        fun found => pure (optionalDocument found) : Action AppError Database Json) =
      (collection.find .empty expr).mapError AppError.query >>=
        fun found => Action.ofExcept (onlyObject (found.map Document.toJson)) := by
  funext db
  rcases ended : collection.find .empty expr db with ⟨cause | found, next⟩
  · have failed : collection.findOne .empty expr db = (.error cause, next) := Action.bind_of_error ended
    rw [Action.bind_of_error (Action.mapError_of_error failed),
      Action.bind_of_error (Action.mapError_of_error ended)]
  · have one := Collection.findOne_of_find ended
    rw [Action.bind_of_ok (Action.mapError_of_ok ended), Action.ofExcept_apply, onlyObject_map]
    cases only : Collection.onlyRecord found with
    | error cause =>
      rw [only] at one
      exact Action.bind_of_error (Action.mapError_of_error one)
    | ok document =>
      rw [only] at one
      exact Action.bind_of_ok (Action.mapError_of_ok one)

theorem execute_findOne : execute collection fresh (.findOne text) =
    search collection text >>= fun found =>
      Action.ofExcept (onlyObject (found.map Document.toJson)) := by
  funext db
  rw [search, bind_assoc, execute]
  cases readJson text with
  | error cause => rfl
  | ok filter =>
    rw [Action.bind_of_ok (Action.ofExcept_apply ..), Action.bind_of_ok (Action.ofExcept_apply ..),
      Collection.findFilter]
    cases Collection.filterExpr filter with
    | error cause => rfl
    | ok expr => exact congrFun (findOne_optional expr) db

end

variable {name : String} {paths : List String} {text : String} {filter : Json} {db : Database}
  {objects : Objects}

private theorem missingIndex?_stored (operation : Operation String) :
    (documents name paths).missingIndex? operation =
      operation.indexNames.find? fun index => decide (index ∉ paths.map IndexName.parse) := by
  have absent (index : IndexName) :
      (Indexes.get? (documents name paths).indexes
        index).isNone = decide (index ∉ paths.map IndexName.parse) := by
    have opened : (Indexes.get? (documents name paths).indexes index).isSome = true ↔
          index ∈ (memberFields paths).map IndexedField.name :=
      Indexes.isSome_get?_fields (Collection.indexStore name) (memberFields paths) index
    rw [← IndexedField.members_names Document, Bool.eq_iff_iff, decide_eq_true_iff]
    change _ ↔ index ∉ (memberFields paths).map IndexedField.name
    rw [← opened]
    simp
  rw [Collection.missingIndex?]
  simp only [absent]

theorem identifierOf_eq_idText? (value : Json) :
    (identifierOf value : Except ReadError String) =
      match idText? value with
      | some id => .ok id
      | none => .error (.wrongType value "a string") := by
  cases value with
  | boolean truth => cases truth <;> rfl
  | _ => rfl

/-- The compilation fails for a cause, or makes a plan if there is none. It reads nothing. -/
def Refuses (reads : List Nat) (step : Compilation (Operation String)) : Option Unsupported → Prop
  | some cause => step.run reads = (.error cause, reads)
  | none => ∃ operation, step.run reads = (.ok operation, reads)

theorem Refuses.pair {reads : List Nat} {former latter : Compilation (Operation String)}
    {cause other : Option Unsupported} (combine : Operation String → Operation String → Operation String)
    (first : Refuses reads former cause) (second : Refuses reads latter other) :
    Refuses reads (do
      let left ← former
      let right ← latter
      pure (combine left right)) (cause.or other) := by
  cases cause with
  | some cause =>
    have failed : former.run reads = (.error cause, reads) := first
    change _ = _
    rw [Expr.bind_run, failed]
  | none =>
    obtain ⟨one, made⟩ := first
    cases other with
    | some other =>
      have failed : latter.run reads = (.error other, reads) := second
      change _ = _
      rw [Expr.bind_run, made]
      dsimp only
      rw [Expr.bind_run, failed]
    | none =>
      obtain ⟨two, madeToo⟩ := second
      refine ⟨combine one two, ?_⟩
      rw [Expr.bind_run, made]
      dsimp only
      rw [Expr.bind_run, madeToo]
      rfl

theorem refuses_equal (scope : Scope) (reads : List Nat) (path : Path) (value : Json) :
    Refuses reads ((Expr.atom .equal path value).compile "id" scope)
      (refusal? (.atom .equal path value)) := by
  rw [Expr.atom, refusal?]
  by_cases empty : path.segments = []
  · have unnamed : (Expr.member path).memberPath = .error (.notMember (.member path)) :=
      if_pos (by simp [Path.isEmpty, empty])
    rw [if_pos empty, Refuses, Expr.compile, unnamed]
    rfl
  · have compiled : ((Expr.atom .equal path value).compile "id" scope).run reads =
        ((Expr.lookup "id" path value : Except Unsupported (Operation String)), reads) :=
      Expr.compile_atom (by simpa [Path.isEmpty] using empty) scope reads
    rw [if_neg empty]
    by_cases named : path.segments = ["id"]
    · have identifier : path.isMember "id" = true := by simpa [Path.isMember] using named
      rw [Expr.lookup, if_pos identifier, identifierOf_eq_idText?] at compiled
      cases text : idText? value with
      | none =>
        rw [text] at compiled
        rw [if_pos ⟨named, rfl⟩]
        exact compiled
      | some id =>
        rw [text] at compiled
        rw [if_neg (by simp)]
        exact ⟨_, compiled⟩
    · have other : ¬ path.isMember "id" = true := by simpa [Path.isMember] using named
      rw [Expr.lookup, if_neg other] at compiled
      rw [if_neg (by simp [named])]
      exact ⟨_, compiled⟩

/-- An expression that compares fields with constants is compiled unless it is refused. -/
theorem refuses_compile {expr : Expr} (comparing : expr.Comparing) (scope : Scope) (reads : List Nat) :
    Refuses reads (expr.compile "id" scope) (refusal? expr) := by
  induction comparing with
  | comparison comparison path value =>
    cases comparison with
    | equal => exact refuses_equal scope reads path value
    | _ => rfl
  | both _ _ former latter => exact former.pair .both latter
  | either _ _ former latter => exact former.pair .either latter
  | negation => rfl

theorem comparing_of_parse {expr : Expr} (parsed : Filter.parse filter = .ok expr) : expr.Comparing :=
  (Filter.hasTruth_of_parse parsed : expr.HasTruth (fun _ _ _ => true) _).comparing

private theorem plan_of_refused {expr : Expr} {cause : Unsupported} (name : String) (paths : List String)
    (parsed : Filter.parse filter = .ok expr) (refused : refusal? expr = some cause) :
    (documents name paths).plan .empty expr = .error (.unsupportedPredicate cause.message) := by
  have failed := refuses_compile (comparing_of_parse parsed) .empty []
  rw [refused, Refuses] at failed
  change ((expr.compile "id" .empty : Compilation (Operation String)).run []).1.mapError _ = _
  rw [failed]
  rfl

private theorem plan_of_accepted {expr : Expr} (name : String) (paths : List String)
    (parsed : Filter.parse filter = .ok expr) (accepted : refusal? expr = none) :
    ∃ operation, (documents name paths).plan .empty expr = .ok operation ∧
      operation.indexNames = (expr.fieldPaths "id").map Path.indexName := by
  have made := refuses_compile (comparing_of_parse parsed) .empty []
  rw [accepted] at made
  obtain ⟨operation, made⟩ := made
  have planned : (documents name paths).plan .empty expr = .ok operation := by
    change ((expr.compile "id" .empty : Compilation (Operation String)).run []).1.mapError _ = _
    rw [made]
    rfl
  obtain ⟨_, compiles⟩ := Collection.plan_eq_ok_iff.mp planned
  exact ⟨operation, planned, compiles.indexNames⟩

private theorem missingIndex?_of_fields (name : String) (paths : List String) {expr : Expr}
    {operation : Operation String}
    (names : operation.indexNames = (expr.fieldPaths "id").map Path.indexName) :
    (documents name paths).missingIndex? operation =
      ((expr.fieldPaths "id").find? fun path => decide (path.indexName ∉ paths.map IndexName.parse)).map
        Path.indexName := by
  rw [missingIndex?_stored, names, List.find?_map]
  rfl

/-- How the reference comes to its answer about a filter. -/
inductive Checked (paths : List String) (filter : Json) : Except QueryError Unit → Prop
  | unread {cause : FilterError} (parsed : Filter.parse filter = .error cause) :
      Checked paths filter (.error (.invalidFilter cause.message))
  | refused {expr : Expr} {cause : Unsupported} (parsed : Filter.parse filter = .ok expr)
      (refused : refusal? expr = some cause) :
      Checked paths filter (.error (.unsupportedPredicate cause.message))
  | undeclared {expr : Expr} {path : Path} (parsed : Filter.parse filter = .ok expr)
      (accepted : refusal? expr = none)
      (undeclared : (expr.fieldPaths "id").find?
        (fun path => decide (path.indexName ∉ paths.map IndexName.parse)) = some path) :
      Checked paths filter (.error (.unknownIndex path.indexName))
  | accepted {expr : Expr} (parsed : Filter.parse filter = .ok expr) (accepted : refusal? expr = none)
      (declared : ∀ path ∈ expr.fieldPaths "id", path.indexName ∈ paths.map IndexName.parse) :
      Checked paths filter (.ok ())

theorem checked (paths : List String) (filter : Json) : Checked paths filter (checkFilter paths filter) := by
  rw [checkFilter]
  split
  case h_1 cause parsed => exact .unread parsed
  case h_2 expr parsed =>
    split
    case h_1 cause refused => exact .refused parsed refused
    case h_2 accepted =>
      split
      case h_1 path undeclared => exact .undeclared parsed accepted undeclared
      case h_2 none => exact .accepted parsed accepted (by simpa [List.find?_eq_none] using none)

/-- A filter that the reference refuses is refused before anything is looked up. -/
theorem findFilter_refused {cause : QueryError} (refused : checkFilter paths filter = .error cause)
    (db : Database) :
    (documents name paths).findFilter filter db = (.error cause, db) := by
  have checked := checked paths filter
  rw [refused] at checked
  rw [Collection.findFilter, Collection.filterExpr]
  cases checked with
  | unread parsed =>
    rw [parsed]
    rfl
  | refused parsed unanswerable =>
    rw [parsed]
    change (documents name paths).find .empty _ db = _
    rw [Collection.find, plan_of_refused name paths parsed unanswerable]
    rfl
  | @undeclared expr path parsed accepted undeclared =>
    obtain ⟨operation, planned, names⟩ := plan_of_accepted name paths parsed accepted
    have missing := missingIndex?_of_fields name paths names
    rw [undeclared] at missing
    rw [parsed]
    change (documents name paths).find .empty expr db = _
    rw [Collection.find, planned, Action.bind_of_ok (Action.ofExcept_apply ..), Collection.execute]
    cases found : (documents name paths).missingIndex? operation with
    | none =>
      rw [found] at missing
      cases missing
    | some index =>
      rw [found] at missing
      cases missing
      rfl

private theorem holdsByName_iff_meets {expr : Expr} {operation : Operation String}
    (parsed : Filter.parse filter = .ok expr)
    (planned : (documents name paths).plan .empty expr = .ok operation) (document : Document) :
    expr.holdsByName .empty document = Filter.meets document.toJson filter := by
  obtain ⟨rest, compiles⟩ := Collection.plan_eq_ok_iff.mp planned
  have meant := Filter.parse_meant document.project_id filter parsed ⟨[], operation, rest, compiles⟩ []
  exact congrArg Prod.fst meant

private theorem nodup_of_ids {rows : List Json} {ids : List String} (distinct : ids.Nodup)
    (owned : rows.map (fun object => IndexValue.project object ⟨["id"]⟩) = ids.map .text) :
    rows.Nodup := by
  have apart : (ids.map IndexValue.text).Nodup :=
    List.Nodup.map (fun _ _ same => IndexValue.text.inj same) distinct
  rw [← owned] at apart
  exact apart.of_map _

private theorem nodup_values {changes : List (Change Document String)}
    (same : ∀ id, objects.get? id = (Change.current? id changes).map Document.toJson) :
    objects.values.Nodup := by
  apply nodup_of_ids objects.distinct
  simp only [Table.values, List.map_map]
  apply List.map_congr_left
  intro row member
  obtain ⟨id, object⟩ := row
  have held : objects.get? id = some object := Table.get?_eq_some_iff.mpr member
  rw [same id] at held
  obtain ⟨document, current, written⟩ := Option.map_eq_some_iff.mp held
  have owned : document.id = id := (Change.put_mem_of_current? current).2
  rw [Function.comp_apply, ← written, document.project_id, owned]
  rfl

/-- A filter that the reference accepts finds the objects that meet it. -/
theorem findFilter_accepted (holds : Holds name paths db objects)
    (accepted : checkFilter paths filter = .ok ()) :
    ∃ found next, (documents name paths).findFilter filter db = (.ok found, next) ∧
      Holds name paths next objects ∧
      (found.map Document.toJson).Perm (matching objects filter) := by
  have checked := checked paths filter
  rw [accepted] at checked
  cases checked with
  | @accepted expr parsed answerable declared =>
    obtain ⟨operation, planned, _⟩ := plan_of_accepted name paths parsed answerable
    obtain ⟨changes, idle, same⟩ := holds
    obtain ⟨found, later, reached, success, distinct, exact⟩ :=
      idle.sound.find_exact planned declared
    have read : Collection.filterExpr filter = .ok expr := by
      rw [Collection.filterExpr, parsed]
      rfl
    refine ⟨found, { db with next := later }, ?_, ⟨changes, idle.renumber reached, same⟩, ?_⟩
    · rw [Collection.findFilter, read]
      exact success
    · have kept : (matching objects filter).Nodup := (nodup_values same).filter _
      have listed : (found.map Document.toJson).Nodup := by
        apply nodup_of_ids distinct
        simp only [List.map_map]
        exact List.map_congr_left fun document _ => document.project_id
      refine (List.perm_ext_iff_of_nodup listed kept).mpr ?_
      intro object
      rw [matching, List.mem_filter, List.mem_map, Table.mem_values]
      constructor
      · intro here
        obtain ⟨document, member, written⟩ := here
        obtain ⟨current, holds⟩ := (exact document).mp member
        rw [holdsByName_iff_meets parsed planned, written] at holds
        refine ⟨⟨document.id, ?_⟩, holds⟩
        rw [same, ← written]
        exact congrArg (Option.map Document.toJson) current
      · intro here
        obtain ⟨⟨id, held⟩, meets⟩ := here
        rw [same] at held
        obtain ⟨document, current, written⟩ := Option.map_eq_some_iff.mp held
        have owned : document.id = id := (Change.put_mem_of_current? current).2
        refine ⟨document, (exact document).mpr ⟨?_, ?_⟩, written⟩
        · rw [← owned] at current
          exact current
        · rw [holdsByName_iff_meets parsed planned, written]
          exact meets

private theorem readJson_eq (text : String) :
    readJson text = (Json.read? text).elim (.error .malformedJson) .ok := by
  rw [readJson]
  cases Json.read? text <;> rfl

theorem search_refused {text : String} {cause : AppError}
    (refused : readFilter paths text = .error cause) (db : Database) :
    search (documents name paths) text db = (.error cause, db) := by
  rw [search, readJson_eq]
  rw [readFilter] at refused
  cases read : Json.read? text with
  | none =>
    rw [read] at refused
    cases refused
    rfl
  | some filter =>
    rw [read] at refused
    change (((documents name paths).findFilter filter).mapError AppError.query) db = _
    cases checked : checkFilter paths filter with
    | error reason =>
      simp only [checked] at refused
      cases refused
      exact Action.mapError_of_error (findFilter_refused checked db)
    | ok =>
      simp only [checked] at refused
      cases refused

/-- What the reference accepts finds the objects that meet the filter. -/
theorem search_accepted {text : String} (holds : Holds name paths db objects)
    (accepted : readFilter paths text = .ok filter) :
    ∃ found next, search (documents name paths) text db = (.ok found, next) ∧
      Holds name paths next objects ∧
      (found.map Document.toJson).Perm (matching objects filter) := by
  rw [search, readJson_eq]
  rw [readFilter] at accepted
  cases read : Json.read? text with
  | none =>
    rw [read] at accepted
    cases accepted
  | some given =>
    rw [read] at accepted
    cases checked : checkFilter paths given with
    | error reason =>
      simp only [checked] at accepted
      cases accepted
    | ok =>
      simp only [checked] at accepted
      cases accepted
      obtain ⟨found, next, success, held, exact⟩ := findFilter_accepted holds checked
      exact ⟨found, next, Action.mapError_of_ok success, held, exact⟩

end DocStore.CommandLine
