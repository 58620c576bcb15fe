import DocStore.Proofs.Query.Parse

namespace DocStore

/-- The truth of each comparison of a field with a value. -/
abbrev Interpretation := Comparison → Path → Json → Bool

namespace Expr

/-- The truth of an expression; it has one if it joins and negates comparisons of fields with values. -/
def truth? (holds : Interpretation) : Expr → Option Bool
  | .compare comparison (.member path) (.literal value) => some (holds comparison path value)
  | .both left right => do
    let first ← truth? holds left
    let second ← truth? holds right
    some (first && second)
  | .either left right => do
    let first ← truth? holds left
    let second ← truth? holds right
    some (first || second)
  | .negation inner => (truth? holds inner).map not
  | _ => none

def HasTruth (holds : Interpretation) (expr : Expr) (truth : Bool) : Prop :=
  expr.truth? holds = some truth

variable {holds : Interpretation}

theorem hasTruth_atom (comparison : Comparison) (path : Path) (value : Json) :
    HasTruth holds (.atom comparison path value) (holds comparison path value) := rfl

theorem HasTruth.both {left right : Expr} {first second : Bool} (former : HasTruth holds left first)
    (latter : HasTruth holds right second) : HasTruth holds (.both left right) (first && second) := by
  unfold HasTruth at *
  simp [truth?, former, latter]

theorem HasTruth.either {left right : Expr} {first second : Bool} (former : HasTruth holds left first)
    (latter : HasTruth holds right second) : HasTruth holds (.either left right) (first || second) := by
  unfold HasTruth at *
  simp [truth?, former, latter]

theorem HasTruth.negation {inner : Expr} {truth : Bool} (within : HasTruth holds inner truth) :
    HasTruth holds (.negation inner) (!truth) := by
  unfold HasTruth at *
  simp [truth?, within]

end Expr

namespace Filter

/-- Whether a field equals one of the listed items. -/
def oneIsTrue (holds : Interpretation) (field : String) : Json → Bool
  | .array items => (items.map (holds .equal (Path.parse field))).or
  | _ => false

mutual

/-- Whether a field is what a filter asks of it: all operators are true of it or, where there are none,
it equals the whole value. -/
def fieldIsTrue (holds : Interpretation) (field : String) : Json → Bool
  | .object members =>
    if hasOperators members then (operatorTruths holds field members).and
    else holds .equal (Path.parse field) (.object members)
  | value => holds .equal (Path.parse field) value
termination_by structural value => value

def operatorTruths (holds : Interpretation) (field : String) : List (String × Json) → List Bool
  | [] => []
  | member :: rest => operatorIsTrue holds field member :: operatorTruths holds field rest
termination_by structural members => members

/-- Whether an operator is true of a field. A comparison is between the field and the operand as it
stands, `$in` asks for one of the listed items, and `$not` turns round what its operand says of the same
field. -/
def operatorIsTrue (holds : Interpretation) (field : String) : String × Json → Bool
  | (key, operand) =>
    match comparisons.lookup key with
    | some comparison => holds comparison (Path.parse field) operand
    | none =>
      if key = "$in" then oneIsTrue holds field operand
      else if key = "$not" then !fieldIsTrue holds field operand
      else false
termination_by structural member => member

end

mutual

/-- Whether a filter is true: all its members are. -/
def isTrue (holds : Interpretation) : Json → Bool
  | .object members => (clauseTruths holds members).and
  | _ => false
termination_by structural filter => filter

def filterTruths (holds : Interpretation) : List Json → List Bool
  | [] => []
  | item :: rest => isTrue holds item :: filterTruths holds rest
termination_by structural items => items

def clauseTruths (holds : Interpretation) : List (String × Json) → List Bool
  | [] => []
  | member :: rest => clauseIsTrue holds member :: clauseTruths holds rest
termination_by structural members => members

/-- Whether a member of a filter is true: every filter under `$and`, at least one filter under `$or`, or
what is asked of a field. -/
def clauseIsTrue (holds : Interpretation) : String × Json → Bool
  | (key, .array items) =>
    if key = "$and" then (filterTruths holds items).and
    else if key = "$or" then (filterTruths holds items).or
    else fieldIsTrue holds key (.array items)
  | (key, value) => fieldIsTrue holds key value
termination_by structural member => member

end

variable {holds : Interpretation} {field : String} {filter value : Json} {member : String × Json}
  {expr : Expr}

theorem operatorTruths_eq_map (members : List (String × Json)) :
    operatorTruths holds field members = members.map (operatorIsTrue holds field) := by
  induction members with
  | nil => rfl
  | cons member rest ih => rw [operatorTruths, List.map_cons, ih]

theorem filterTruths_eq_map (items : List Json) :
    filterTruths holds items = items.map (isTrue holds) := by
  induction items with
  | nil => rfl
  | cons item rest ih => rw [filterTruths, List.map_cons, ih]

theorem clauseTruths_eq_map (members : List (String × Json)) :
    clauseTruths holds members = members.map (clauseIsTrue holds) := by
  induction members with
  | nil => rfl
  | cons member rest ih => rw [clauseTruths, List.map_cons, ih]

theorem lookup_comparisons {key : String} {comparison : Comparison}
    (named : (key, comparison) ∈ comparisons) : comparisons.lookup key = some comparison := by
  simp only [comparisons, List.mem_cons, Prod.mk.injEq, List.not_mem_nil, or_false] at named
  rcases named with ⟨rfl, rfl⟩ | ⟨rfl, rfl⟩ | ⟨rfl, rfl⟩ | ⟨rfl, rfl⟩ | ⟨rfl, rfl⟩ | ⟨rfl, rfl⟩ <;> rfl

/-- Under a key that is no operator stands what is asked of a field, whatever it looks like. -/
theorem clauseIsTrue_field {key : String} (plain : isOperator key = false) :
    clauseIsTrue holds (key, value) = fieldIsTrue holds key value := by
  cases value with
  | array items =>
    rw [clauseIsTrue, if_neg ?_, if_neg ?_]
    · rintro rfl
      cases plain
    · rintro rfl
      cases plain
  | _ => rfl

theorem hasTruth_of_parseField (parsed : parseField field value = .ok expr) :
    expr.HasTruth holds (fieldIsTrue holds field value) := by
  induction value using Json.nested generalizing expr with
  | object members ih =>
    cases parseField_eq_ok_iff.mp parsed with
    | value plain => exact absurd rfl (plain members)
    | embedded _ plain =>
      rw [fieldIsTrue, if_neg (by simp [plain])]
      exact Expr.hasTruth_atom ..
    | operators operators read joined =>
      rw [fieldIsTrue, if_pos operators, operatorTruths_eq_map]
      refine Expr.means_and _ Expr.HasTruth.both (Expr.means_map _ ?_ read) joined
      intro member here part read
      cases read with
      | comparison named =>
        rw [operatorIsTrue, lookup_comparisons named]
        exact Expr.hasTruth_atom ..
      | @choices items _ joined =>
        refine Expr.means_or _ Expr.HasTruth.either ?_ joined
        rw [List.forall₂_map_left_iff, List.forall₂_map_right_iff, List.forall₂_same]
        exact fun item _ => Expr.hasTruth_atom ..
      | negation parsed => exact (ih _ here parsed).negation
  | _ =>
    cases parsed
    exact Expr.hasTruth_atom ..

/-- What a filter says is true when the expression it is read as is. -/
theorem hasTruth_of_parse (parsed : parse filter = .ok expr) : expr.HasTruth holds (isTrue holds filter) := by
  refine parse_means (Expr.HasTruth holds) (isTrue holds) (clauseIsTrue holds) Expr.HasTruth.both
    Expr.HasTruth.either ?_ ?_ ?_ ?_ parsed
  · intro key value expr plain parsed
    rw [clauseIsTrue_field plain]
    exact hasTruth_of_parseField parsed
  · intro members
    rw [isTrue, clauseTruths_eq_map]
  · intro items
    rw [clauseIsTrue, if_pos rfl, filterTruths_eq_map]
  · intro items
    rw [clauseIsTrue, if_neg (by decide), if_pos rfl, filterTruths_eq_map]

/-- However the comparisons of fields with values turn out, the expression that an accepted filter is read
as is true if and only if the filter is. -/
theorem truth?_of_parse (holds : Interpretation) {filter : Json} {expr : Expr}
    (parsed : parse filter = .ok expr) : expr.truth? holds = some (isTrue holds filter) :=
  hasTruth_of_parse parsed

/-- The member `a` is an object of a null `b` alone, or else it is below a bound and not null. -/
def alternatives : Json :=
  .object [("$or", .array [
    .object [("a", .object [("b", .null)])],
    .object [("a", .object [("$lt", .boolean true), ("$not", .object [("$in", .array [.null])])])]])]

/-- Where just the equalities are false, the second alternative is true. -/
theorem truth?_of_parse_alternatives :
    ∃ expr, parse alternatives = .ok expr ∧
      expr.truth? (fun comparison _ _ => comparison != .equal) = some true := by
  have parsed : parse alternatives = .ok _ := rfl
  have holds : isTrue (fun comparison _ _ => comparison != .equal) alternatives = true := by
    decide +kernel
  exact ⟨_, parsed, holds ▸ truth?_of_parse _ parsed⟩

end Filter

end DocStore
