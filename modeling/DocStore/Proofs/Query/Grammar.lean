import DocStore.Collection.Search
import DocStore.Proofs.Query.Truth

namespace DocStore

/-- Expressions that join and negate comparisons of fields with constants. -/
inductive Expr.Comparing : Expr → Prop
  | comparison (comparison : Comparison) (path : Path) (value : Json) :
      Comparing (.compare comparison (.member path) (.literal value))
  | both {left right : Expr} (former : Comparing left) (latter : Comparing right) :
      Comparing (.both left right)
  | either {left right : Expr} (former : Comparing left) (latter : Comparing right) :
      Comparing (.either left right)
  | negation {inner : Expr} (within : Comparing inner) : Comparing (.negation inner)

theorem Expr.HasTruth.comparing {holds : Interpretation} {expr : Expr} {truth : Bool}
    (has : expr.HasTruth holds truth) : expr.Comparing := by
  unfold HasTruth at has
  induction expr generalizing truth with
  | compare comparison left right =>
    cases left with
    | member path =>
      cases right with
      | literal value => exact .comparison comparison path value
      | _ => cases has
    | _ => cases has
  | both left right former latter =>
    obtain ⟨first, has, further⟩ := Option.bind_eq_some_iff.mp has
    obtain ⟨second, others, _⟩ := Option.bind_eq_some_iff.mp further
    exact .both (former has) (latter others)
  | either left right former latter =>
    obtain ⟨first, has, further⟩ := Option.bind_eq_some_iff.mp has
    obtain ⟨second, others, _⟩ := Option.bind_eq_some_iff.mp further
    exact .either (former has) (latter others)
  | negation inner within =>
    obtain ⟨truth, has, _⟩ := Option.map_eq_some_iff.mp has
    exact .negation (within has)
  | _ => cases has

namespace Filter

mutual

/-- What a field can be asked to be: a value, a whole object without operators, or an object of
operators. -/
inductive IsFieldValue : Json → Prop
  | value {value : Json} (plain : ∀ members, value ≠ .object members) : IsFieldValue value
  | embedded {members : List (String × Json)} (nonempty : members ≠ [])
      (plain : ∀ member ∈ members, isOperator member.1 = false) : IsFieldValue (.object members)
  | operators {members : List (String × Json)} (nonempty : members ≠ [])
      (each : ∀ member ∈ members, IsOperation member) : IsFieldValue (.object members)

/-- An operator with an operand it takes. -/
inductive IsOperation : String × Json → Prop
  | comparison {key : String} (operand : Json)
      (named : key ∈ ["$eq", "$ne", "$gt", "$gte", "$lt", "$lte"]) : IsOperation (key, operand)
  | choices {items : List Json} (nonempty : items ≠ []) : IsOperation ("$in", .array items)
  | negation {members : List (String × Json)} (operand : IsFieldValue (.object members)) :
      IsOperation ("$not", .object members)

end

mutual

/-- A filter: an object with members, each of them a clause. -/
inductive IsFilter : Json → Prop
  | clauses {members : List (String × Json)} (nonempty : members ≠ [])
      (each : ∀ member ∈ members, IsClause member) : IsFilter (.object members)

/-- A member of a filter: filters joined by `$and` or `$or`, or a field and what it is asked to be. -/
inductive IsClause : String × Json → Prop
  | joined {key : String} {items : List Json} (connective : key ∈ ["$and", "$or"])
      (nonempty : items ≠ []) (each : ∀ item ∈ items, IsFilter item) : IsClause (key, .array items)
  | field {key : String} {value : Json} (plain : isOperator key = false) (asked : IsFieldValue value) :
      IsClause (key, value)

end

variable {field key : String} {value filter : Json}

/-- The operators with an operand they take are the ones that are read, if the operand of a negation is
read just when it can be asked of a field. -/
theorem exists_operatorRead_iff
    (within : (∃ expr, parseField field value = .ok expr) ↔ IsFieldValue value) :
    (∃ expr, OperatorRead field (key, value) expr) ↔ IsOperation (key, value) := by
  constructor
  · rintro ⟨expr, read⟩
    cases read with
    | comparison named =>
      exact .comparison value (show key ∈ comparisons.map Prod.fst from List.mem_map_of_mem named)
    | choices joined => exact .choices (by simpa using Expr.exists_join?_iff.mp ⟨expr, joined⟩)
    | negation parsed => exact .negation (within.mp ⟨_, parsed⟩)
  · intro operation
    cases operation with
    | comparison operand named =>
      obtain ⟨⟨_, comparison⟩, listed, rfl⟩ :=
        List.mem_map.mp (show key ∈ comparisons.map Prod.fst from named)
      exact ⟨_, .comparison listed⟩
    | @choices items nonempty =>
      obtain ⟨expr, joined⟩ : ∃ expr,
          Expr.join? .either (items.map (Expr.atom .equal (Path.parse field))) = some expr :=
        Expr.exists_join?_iff.mpr (by simpa using nonempty)
      exact ⟨expr, .choices joined⟩
    | negation operand =>
      obtain ⟨inner, parsed⟩ := within.mpr operand
      exact ⟨_, .negation parsed⟩

theorem exists_parseField_iff : (∃ expr, parseField field value = .ok expr) ↔ IsFieldValue value := by
  induction value using Json.nested with
  | object members ih =>
    have each : (∀ member ∈ members, ∃ part, OperatorRead field member part) ↔
        ∀ member ∈ members, IsOperation member :=
      forall₂_congr fun member here => exists_operatorRead_iff (ih member here)
    simp only [parseField_eq_ok_iff]
    constructor
    · rintro ⟨expr, read⟩
      cases read with
      | value plain => exact absurd rfl (plain members)
      | embedded nonempty plain => exact .embedded nonempty (by simpa [hasOperators] using plain)
      | operators _ read joined =>
        obtain ⟨nonempty, read⟩ := Expr.exists_joined_iff.mp ⟨_, expr, read, joined⟩
        exact .operators nonempty (each.mp read)
    · intro asked
      cases found : hasOperators members with
      | false =>
        refine ⟨_, .embedded ?_ found⟩
        cases asked with
        | value plain => exact absurd rfl (plain members)
        | embedded nonempty => exact nonempty
        | operators nonempty => exact nonempty
      | true =>
        cases asked with
        | value plain => exact absurd rfl (plain members)
        | embedded _ plain =>
          obtain ⟨member, here, operator⟩ := List.any_eq_true.mp found
          simp [plain member here] at operator
        | operators nonempty operations =>
          obtain ⟨parts, expr, read, joined⟩ := Expr.exists_joined_iff.mpr ⟨nonempty, each.mpr operations⟩
          exact ⟨expr, .operators found read joined⟩
  | _ => exact iff_of_true ⟨_, rfl⟩ (.value (by simp))

/-- The clauses are the members that are read, if the items of an array are read just when they are
filters. -/
theorem exists_clauseRead_iff (within : ∀ items, value = .array items →
      ∀ item ∈ items, ((∃ expr, parse item = .ok expr) ↔ IsFilter item)) :
    (∃ expr, ClauseRead (key, value) expr) ↔ IsClause (key, value) := by
  constructor
  · rintro ⟨expr, read⟩
    cases read with
    | both parsed joined =>
      obtain ⟨nonempty, parsed⟩ := Expr.exists_joined_iff.mp ⟨_, expr, parsed, joined⟩
      exact .joined (by simp) nonempty fun item here => (within _ rfl item here).mp (parsed item here)
    | either parsed joined =>
      obtain ⟨nonempty, parsed⟩ := Expr.exists_joined_iff.mp ⟨_, expr, parsed, joined⟩
      exact .joined (by simp) nonempty fun item here => (within _ rfl item here).mp (parsed item here)
    | field plain parsed => exact .field plain (exists_parseField_iff.mp ⟨expr, parsed⟩)
  · intro clause
    cases clause with
    | joined connective nonempty each =>
      have parsed := fun item here => (within _ rfl item here).mpr (each item here)
      rcases List.mem_pair.mp connective with rfl | rfl
      · obtain ⟨parts, expr, parsed, joined⟩ := Expr.exists_joined_iff.mpr ⟨nonempty, parsed⟩
        exact ⟨expr, .both parsed joined⟩
      · obtain ⟨parts, expr, parsed, joined⟩ := Expr.exists_joined_iff.mpr ⟨nonempty, parsed⟩
        exact ⟨expr, .either parsed joined⟩
    | field plain asked =>
      obtain ⟨expr, parsed⟩ := exists_parseField_iff.mpr asked
      exact ⟨expr, .field plain parsed⟩

/-- The filters are just what is read, and so are the clauses: one is about the value itself, the other
about filters in the value. -/
private theorem exists_parse_iff_and (filter : Json) :
    ((∃ expr, parse filter = .ok expr) ↔ IsFilter filter) ∧
      ∀ key, (∃ expr, ClauseRead (key, filter) expr) ↔ IsClause (key, filter) := by
  induction filter using Json.nested with
  | object members ih =>
    refine ⟨?_, fun key => exists_clauseRead_iff (by simp)⟩
    constructor
    · rintro ⟨expr, parsed⟩
      obtain ⟨_, parts, same, read, joined⟩ := parse_eq_ok_iff.mp parsed
      cases same
      obtain ⟨nonempty, read⟩ := Expr.exists_joined_iff.mp ⟨parts, expr, read, joined⟩
      exact .clauses nonempty fun member here => ((ih member here).2 member.1).mp (read member here)
    · intro clauses
      cases clauses with
      | clauses nonempty each =>
        have read := fun member here => ((ih member here).2 member.1).mpr (each member here)
        obtain ⟨parts, expr, read, joined⟩ := Expr.exists_joined_iff.mpr ⟨nonempty, read⟩
        exact ⟨expr, parse_eq_ok_iff.mpr ⟨members, parts, rfl, read, joined⟩⟩
  | array items ih =>
    refine ⟨iff_of_false (by simp [parse]) (by rintro ⟨⟩), fun key => exists_clauseRead_iff ?_⟩
    intro _ same item here
    cases same
    exact (ih item here).1
  | _ =>
    exact ⟨iff_of_false (by simp [parse]) (by rintro ⟨⟩), fun key => exists_clauseRead_iff (by simp)⟩

theorem exists_parse_iff : (∃ expr, parse filter = .ok expr) ↔ IsFilter filter :=
  (exists_parse_iff_and filter).1

end Filter

/-- Just the filters are accepted, everything else is refused as an invalid filter, and what is accepted
joins and negates comparisons of fields with constants. -/
theorem Collection.filterExpr_grammar (filter : Json) :
    ((∃ expr, filterExpr filter = .ok expr) ↔ Filter.IsFilter filter) ∧
      (¬ Filter.IsFilter filter → ∃ reason, filterExpr filter = .error (.invalidFilter reason)) ∧
      ∀ expr, filterExpr filter = .ok expr → expr.Comparing := by
  rw [← Filter.exists_parse_iff, filterExpr]
  cases parsed : Filter.parse filter with
  | error cause => exact ⟨by simp [Except.mapError], fun _ => ⟨_, rfl⟩, nofun⟩
  | ok expr =>
    have comparing : expr.Comparing :=
      (Filter.hasTruth_of_parse parsed : expr.HasTruth (fun _ _ _ => true) _).comparing
    refine ⟨by simp [Except.mapError], fun refused => absurd ⟨expr, rfl⟩ refused, ?_⟩
    rintro _ ⟨⟩
    exact comparing

end DocStore
