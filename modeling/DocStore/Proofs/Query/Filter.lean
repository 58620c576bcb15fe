import DocStore.Proofs.Query.Meaning
import DocStore.Proofs.Query.Parse

namespace DocStore

namespace Filter

/-- Whether the member of an object at a dotted path has the index value of a constant. -/
def hasValue (object : Json) (field : String) (value : Json) : Bool :=
  decide (IndexValue.project object (Path.parse field) = IndexValue.ofJson value)

/-- Whether the member at a dotted path has one of some values. -/
def hasChoice (object : Json) (field : String) : Json → Bool
  | .array items => (items.map (hasValue object field)).or
  | _ => false

/-- Whether the member at a dotted path meets an operator. Only equality and membership can be met, and
filters with other operators are refused. -/
def meetsOperator (object : Json) (field : String) (operator : String × Json) : Bool :=
  if operator.1 = "$eq" then hasValue object field operator.2
  else if operator.1 = "$in" then hasChoice object field operator.2
  else false

/-- Whether an object meets what a filter asks of one field: every operator, or else the value. -/
def meetsField (object : Json) (field : String) : Json → Bool
  | .object members =>
    if hasOperators members then (members.map (meetsOperator object field)).and
    else hasValue object field (.object members)
  | value => hasValue object field value

mutual

/-- Whether an object meets a filter: all of its clauses. -/
def meets (object : Json) : Json → Bool
  | .object members => (clausesMet object members).and
  | _ => false
termination_by structural filter => filter

def filtersMet (object : Json) : List Json → List Bool
  | [] => []
  | item :: rest => meets object item :: filtersMet object rest
termination_by structural items => items

def clausesMet (object : Json) : List (String × Json) → List Bool
  | [] => []
  | member :: rest => meetsClause object member :: clausesMet object rest
termination_by structural members => members

def meetsClause (object : Json) : String × Json → Bool
  | (key, .array items) =>
    if key = "$and" then (filtersMet object items).and
    else if key = "$or" then (filtersMet object items).or
    else meetsField object key (.array items)
  | (key, value) => meetsField object key value
termination_by structural member => member

end

end Filter

/-- An identifier in a filter is compared as the text it is kept as. -/
theorem identifierOf_ofJson {value : Json} {id : String} (read : identifierOf value = .ok id) :
    IndexValue.ofJson value = .text id := by
  cases value with
  | string contents => cases read; rfl
  | number found => cases read; rfl
  | boolean found => cases read; rfl
  | _ => cases read

namespace Expr

/-- If it can be answered at all, an expression has this truth for an object with this id, its fields
looked at by their names, and it reads no captured value. -/
def Meant (object : Json) (id : String) (expr : Expr) (truth : Bool) : Prop :=
  (∃ (reads : List Nat) (operation : Operation String) (rest : List Nat),
    expr.CompilesTo "id" .empty reads operation rest) →
  ∀ reads, expr.evaluate "id" .empty id
    (fun path => some (IndexValue.project object path.covered)) reads = (truth, reads)

variable {object : Json} {id : String}

theorem Meant.both {left right : Expr} {first second : Bool} (former : Meant object id left first)
    (latter : Meant object id right second) :
    Meant object id (.both left right) (first && second) := by
  intro accepted reads
  obtain ⟨_, _, _, compiles⟩ := accepted
  cases compiles with
  | both accepted further =>
    simp only [evaluate, former ⟨_, _, _, accepted⟩ reads, latter ⟨_, _, _, further⟩ reads]

theorem Meant.either {left right : Expr} {first second : Bool} (former : Meant object id left first)
    (latter : Meant object id right second) :
    Meant object id (.either left right) (first || second) := by
  intro accepted reads
  obtain ⟨_, _, _, compiles⟩ := accepted
  cases compiles with
  | either accepted further =>
    simp only [evaluate, former ⟨_, _, _, accepted⟩ reads, latter ⟨_, _, _, further⟩ reads]

theorem meant_equal (owned : IndexValue.project object ⟨["id"]⟩ = .text id) (field : String)
    (value : Json) :
    Meant object id (atom .equal (Path.parse field) value) (Filter.hasValue object field value) := by
  intro accepted reads
  obtain ⟨_, operation, _, compiles⟩ := accepted
  cases compiles with
  | @equality _ _ path constant _ _ _ named written found =>
    have same : path = Path.parse field := by
      have looked := field?_of_memberPath named
      exact (Option.some.inj looked).symm
    have known : constant = value := by
      have read := given_of_constant written
      exact (Option.some.inj (congrArg Prod.fst read)).symm
    subst same known
    have truth : equals "id" id (fun path => some (IndexValue.project object path.covered))
        (Path.parse field) constant = Filter.hasValue object field constant := by
      unfold lookup at found
      unfold equals
      rw [Filter.hasValue]
      split at found
      case isTrue identifier =>
        rw [if_pos identifier]
        have whole : Path.parse field = ⟨["id"]⟩ := by
          have segments : (Path.parse field).segments = ["id"] := by
            simpa [Path.isMember] using identifier
          rw [← segments]
        cases read : (identifierOf constant : Except ReadError String) with
        | error cause =>
          rw [read] at found
          cases found
        | ok wanted =>
          rw [whole, owned, identifierOf_ofJson read]
          simp
      case isFalse differs =>
        rw [if_neg differs]
        simp
    simp only [atom, evaluate, field?, given, bare, truth]

theorem meant_refused {expr : Expr} {truth : Bool}
    (refused : ∀ (reads : List Nat) (operation : Operation String) (rest : List Nat),
      ¬ expr.CompilesTo "id" .empty reads operation rest) : Meant object id expr truth := by
  intro accepted
  obtain ⟨reads, operation, rest, compiles⟩ := accepted
  exact absurd compiles (refused reads operation rest)

theorem meant_compare {comparison : Comparison} (differs : comparison ≠ .equal) {left right : Expr}
    {truth : Bool} : Meant object id (.compare comparison left right) truth := by
  apply meant_refused
  intro reads operation rest compiles
  cases compiles
  exact differs rfl

theorem meant_negation {inner : Expr} {truth : Bool} : Meant object id (.negation inner) truth := by
  apply meant_refused
  intro reads operation rest compiles
  cases compiles

end Expr

namespace Filter

variable {object filter value : Json} {id field : String} {member : String × Json} {expr : Expr}

theorem filtersMet_eq_map (items : List Json) : filtersMet object items = items.map (meets object) := by
  induction items with
  | nil => rfl
  | cons item rest ih => rw [filtersMet, List.map_cons, ih]

theorem clausesMet_eq_map (members : List (String × Json)) :
    clausesMet object members = members.map (meetsClause object) := by
  induction members with
  | nil => rfl
  | cons member rest ih => rw [clausesMet, List.map_cons, ih]

theorem meetsClause_field {key : String} (plain : isOperator key = false) :
    meetsClause object (key, value) = meetsField object key value := by
  cases value with
  | array items =>
    rw [meetsClause, if_neg ?_, if_neg ?_]
    · rintro rfl
      cases plain
    · rintro rfl
      cases plain
  | _ => rfl

theorem operatorRead_meant (owned : IndexValue.project object ⟨["id"]⟩ = .text id)
    (read : OperatorRead field member expr) : expr.Meant object id (meetsOperator object field member) := by
  cases read with
  | @comparison key comparison value named =>
    by_cases equal : comparison = .equal
    · subst equal
      have spelled : key = "$eq" := by simpa [comparisons] using named
      rw [meetsOperator, if_pos spelled]
      exact Expr.meant_equal owned field value
    · exact Expr.meant_compare equal
  | @choices items _ joined =>
    refine Expr.means_or _ Expr.Meant.either ?_ joined
    rw [List.forall₂_map_left_iff, List.forall₂_map_right_iff, List.forall₂_same]
    exact fun item _ => Expr.meant_equal owned field item
  | negation => exact Expr.meant_negation

theorem parseField_meant (owned : IndexValue.project object ⟨["id"]⟩ = .text id)
    (parsed : parseField field value = .ok expr) : expr.Meant object id (meetsField object field value) := by
  cases value with
  | object members =>
    cases parseField_eq_ok_iff.mp parsed with
    | value plain => exact absurd rfl (plain members)
    | embedded _ plain =>
      rw [meetsField, if_neg (by simp [plain])]
      exact Expr.meant_equal owned field (.object members)
    | operators operators read joined =>
      rw [meetsField, if_pos operators]
      exact Expr.means_and _ Expr.Meant.both
        (Expr.means_map _ (fun _ _ _ => operatorRead_meant owned) read) joined
  | _ =>
    cases parsed
    exact Expr.meant_equal owned field _

/-- What a filter parses to means what the filter says. -/
theorem parse_meant (owned : IndexValue.project object ⟨["id"]⟩ = .text id) (filter : Json) {expr : Expr}
    (parsed : parse filter = .ok expr) : expr.Meant object id (meets object filter) := by
  refine parse_means (Expr.Meant object id) (meets object) (meetsClause object) Expr.Meant.both
    Expr.Meant.either ?_ ?_ ?_ ?_ parsed
  · intro key value expr plain parsed
    rw [meetsClause_field plain]
    exact parseField_meant owned parsed
  · intro members
    rw [meets, clausesMet_eq_map]
  · intro items
    rw [meetsClause, if_pos rfl, filtersMet_eq_map]
  · intro items
    rw [meetsClause, if_neg (by decide), if_pos rfl, filtersMet_eq_map]

end Filter

end DocStore
