import DocStore.Proofs.Except
import DocStore.Query.Filter

namespace DocStore

namespace Expr

variable {combine : Expr → Expr → Expr} {parts : List Expr} {expr : Expr}

theorem exists_join?_iff : (∃ expr, join? combine parts = some expr) ↔ parts ≠ [] := by
  cases parts with
  | nil => simp [join?]
  | cons first rest => simp [join?]

/-- The parts of one object or array can be joined when there are any and each of them is something. -/
theorem exists_joined_iff {α : Type} {R : α → Expr → Prop} {items : List α} :
    (∃ parts expr, List.Forall₂ R items parts ∧ join? combine parts = some expr) ↔
      items ≠ [] ∧ ∀ item ∈ items, ∃ part, R item part := by
  rw [← exists_forall₂_iff]
  constructor
  · rintro ⟨parts, expr, related, joined⟩
    refine ⟨?_, parts, related⟩
    rintro rfl
    cases related
    cases joined
  · rintro ⟨nonempty, parts, related⟩
    obtain ⟨expr, joined⟩ : ∃ expr, join? combine parts = some expr := by
      rw [exists_join?_iff]
      rintro rfl
      cases related
      exact nonempty rfl
    exact ⟨parts, expr, related, joined⟩

section

variable (Means : Expr → Bool → Prop) {truths : List Bool}

/-- Parts mean together what each was read from. -/
theorem means_map {α : Type} {R : α → Expr → Prop} {items : List α} {truthOf : α → Bool}
    (means : ∀ item ∈ items, ∀ part, R item part → Means part (truthOf item))
    (read : List.Forall₂ R items parts) : List.Forall₂ Means parts (items.map truthOf) := by
  rw [List.forall₂_map_right_iff]
  refine List.Forall₂.flip ?_
  refine ((List.forall₂_and_left items parts).mpr ⟨means, read⟩).imp ?_
  intro item part given
  exact given.1 part given.2

private theorem means_foldl {join : Bool → Bool → Bool}
    (joins : ∀ {left right first second}, Means left first → Means right second →
      Means (combine left right) (join first second))
    (others : List.Forall₂ Means parts truths) {first : Expr} {truth : Bool} (means : Means first truth) :
    Means (parts.foldl combine first) (truths.foldl join truth) := by
  induction others generalizing first truth with
  | nil => exact means
  | cons next _ ih => exact ih (joins means next)

private theorem foldl_and (truth : Bool) (truths : List Bool) :
    truths.foldl and truth = (truth && truths.and) := by
  induction truths generalizing truth with
  | nil => simp
  | cons next rest ih => rw [List.foldl_cons, ih, List.and_cons, Bool.and_assoc]

private theorem foldl_or (truth : Bool) (truths : List Bool) :
    truths.foldl or truth = (truth || truths.or) := by
  induction truths generalizing truth with
  | nil => simp
  | cons next rest ih => rw [List.foldl_cons, ih, List.or_cons, Bool.or_assoc]

/-- Parts joined by AND mean that all of them hold, if the AND of two expressions means that both do. -/
theorem means_and
    (joins : ∀ {left right first second}, Means left first → Means right second →
      Means (.both left right) (first && second))
    (means : List.Forall₂ Means parts truths) (joined : join? .both parts = some expr) :
    Means expr truths.and := by
  cases means with
  | nil => cases joined
  | cons first others =>
    cases joined
    rw [List.and_cons, ← foldl_and]
    exact means_foldl Means joins others first

/-- Parts joined by OR mean that one of them holds, if the OR of two expressions means that either does. -/
theorem means_or
    (joins : ∀ {left right first second}, Means left first → Means right second →
      Means (.either left right) (first || second))
    (means : List.Forall₂ Means parts truths) (joined : join? .either parts = some expr) :
    Means expr truths.or := by
  cases means with
  | nil => cases joined
  | cons first others =>
    cases joined
    rw [List.or_cons, ← foldl_or]
    exact means_foldl Means joins others first

end

end Expr

namespace Filter

variable {field key : String} {value filter : Json} {member : String × Json} {expr : Expr}

/-- The operators that compare a field with their operand. -/
def comparisons : List (String × Comparison) :=
  [("$eq", .equal), ("$ne", .notEqual), ("$gt", .greater), ("$gte", .greaterEqual), ("$lt", .less),
    ("$lte", .lessEqual)]

/-- An operator of a field and what it becomes. -/
inductive OperatorRead (field : String) : String × Json → Expr → Prop
  | comparison {key : String} {comparison : Comparison} {value : Json}
      (named : (key, comparison) ∈ comparisons) :
      OperatorRead field (key, value) (.atom comparison (Path.parse field) value)
  | choices {items : List Json} {expr : Expr}
      (joined : Expr.join? .either (items.map (Expr.atom .equal (Path.parse field))) = some expr) :
      OperatorRead field ("$in", .array items) expr
  | negation {members : List (String × Json)} {inner : Expr}
      (parsed : parseField field (.object members) = .ok inner) :
      OperatorRead field ("$not", .object members) (.negation inner)

inductive FieldRead (field : String) : Json → Expr → Prop
  | value {value : Json} (plain : ∀ members, value ≠ .object members) :
      FieldRead field value (.atom .equal (Path.parse field) value)
  | embedded {members : List (String × Json)} (nonempty : members ≠ [])
      (plain : hasOperators members = false) :
      FieldRead field (.object members) (.atom .equal (Path.parse field) (.object members))
  | operators {members : List (String × Json)} {parts : List Expr} {expr : Expr}
      (operators : hasOperators members = true)
      (read : List.Forall₂ (OperatorRead field) members parts)
      (joined : Expr.join? .both parts = some expr) : FieldRead field (.object members) expr

inductive ClauseRead : String × Json → Expr → Prop
  | both {items : List Json} {parts : List Expr} {expr : Expr}
      (parsed : List.Forall₂ (fun item part => parse item = .ok part) items parts)
      (joined : Expr.join? .both parts = some expr) : ClauseRead ("$and", .array items) expr
  | either {items : List Json} {parts : List Expr} {expr : Expr}
      (parsed : List.Forall₂ (fun item part => parse item = .ok part) items parts)
      (joined : Expr.join? .either parts = some expr) : ClauseRead ("$or", .array items) expr
  | field {key : String} {value : Json} {expr : Expr} (plain : isOperator key = false)
      (parsed : parseField key value = .ok expr) : ClauseRead (key, value) expr

theorem joined_eq_ok_iff {combine : Expr → Expr → Expr} {empty : FilterError} {parts : List Expr} :
    joined combine empty parts = .ok expr ↔ Expr.join? combine parts = some expr := by
  unfold joined
  cases Expr.join? combine parts <;> simp

theorem parseOperators_eq_ok_iff {members : List (String × Json)} {parts : List Expr} :
    parseOperators field members = .ok parts ↔
      List.Forall₂ (fun member part => parseOperator field member = .ok part) members parts := by
  have same : parseOperators field members = members.mapM (parseOperator field) := by
    induction members with
    | nil => rfl
    | cons member rest ih => rw [parseOperators, List.mapM_cons, ih]
  rw [same, mapM_eq_ok_iff]

theorem parseAll_eq_ok_iff {items : List Json} {parts : List Expr} :
    parseAll items = .ok parts ↔ List.Forall₂ (fun item part => parse item = .ok part) items parts := by
  have same : parseAll items = items.mapM parse := by
    induction items with
    | nil => rfl
    | cons item rest ih => rw [parseAll, List.mapM_cons, ih]
  rw [same, mapM_eq_ok_iff]

theorem parseClauses_eq_ok_iff {members : List (String × Json)} {parts : List Expr} :
    parseClauses members = .ok parts ↔
      List.Forall₂ (fun member part => parseClause member = .ok part) members parts := by
  have same : parseClauses members = members.mapM parseClause := by
    induction members with
    | nil => rfl
    | cons member rest ih => rw [parseClauses, List.mapM_cons, ih]
  rw [same, mapM_eq_ok_iff]

-- These two definitions recurse below a match on the value, so their equations hold only once the value
-- is taken apart.
theorem parseOperator_eq (field key : String) (value : Json) :
    parseOperator field (key, value) =
      if key = "$eq" then .ok (Expr.atom .equal (Path.parse field) value)
      else if key = "$ne" then .ok (Expr.atom .notEqual (Path.parse field) value)
      else if key = "$gt" then .ok (Expr.atom .greater (Path.parse field) value)
      else if key = "$gte" then .ok (Expr.atom .greaterEqual (Path.parse field) value)
      else if key = "$lt" then .ok (Expr.atom .less (Path.parse field) value)
      else if key = "$lte" then .ok (Expr.atom .lessEqual (Path.parse field) value)
      else if key = "$in" then choices (Path.parse field) value
      else if key = "$not" then
        match value with
        | .object members => do
          let inner ← parseField field (.object members)
          pure (.negation inner)
        | _ => .error .negationNotObject
      else .error (.unknownOperator key field) := by
  cases value <;> rfl

theorem parseClause_eq (key : String) (value : Json) :
    parseClause (key, value) =
      if key = "$and" then
        match value with
        | .array items => do
          let parts ← parseAll items
          joined .both (.noFilters key) parts
        | _ => .error (.notArray key)
      else if key = "$or" then
        match value with
        | .array items => do
          let parts ← parseAll items
          joined .either (.noFilters key) parts
        | _ => .error (.notArray key)
      else if isOperator key then .error (.unknownConnective key)
      else parseField key value := by
  cases value <;> rfl

theorem choices_eq_ok_iff {path : Path} :
    choices path value = .ok expr ↔ ∃ items, value = .array items ∧
      Expr.join? .either (items.map (Expr.atom .equal path)) = some expr := by
  cases value with
  | array items => simp [choices, joined_eq_ok_iff]
  | _ => simp [choices]

theorem parseOperator_eq_ok_iff : parseOperator field member = .ok expr ↔ OperatorRead field member expr := by
  obtain ⟨key, value⟩ := member
  constructor
  · intro parsed
    have compared {comparison : Comparison} (named : (key, comparison) ∈ comparisons)
        (done : Except.ok (Expr.atom comparison (Path.parse field) value) =
          (Except.ok expr : Except FilterError Expr)) : OperatorRead field (key, value) expr := by
      cases done
      exact .comparison named
    rw [parseOperator_eq] at parsed
    iterate 6
      split at parsed
      case isTrue named => exact compared (by simp [comparisons, named]) parsed
    split at parsed
    case isTrue chosen =>
      subst chosen
      obtain ⟨items, rfl, joined⟩ := choices_eq_ok_iff.mp parsed
      exact .choices joined
    split at parsed
    case isFalse => cases parsed
    case isTrue negated =>
      subst negated
      cases value with
      | object members =>
        obtain ⟨inner, within, done⟩ := bind_eq_ok_iff.mp parsed
        cases done
        exact .negation within
      | _ => cases parsed
  · intro read
    cases read with
    | comparison named =>
      simp only [comparisons, List.mem_cons, Prod.mk.injEq, List.not_mem_nil, or_false] at named
      rcases named with ⟨rfl, rfl⟩ | ⟨rfl, rfl⟩ | ⟨rfl, rfl⟩ | ⟨rfl, rfl⟩ | ⟨rfl, rfl⟩ | ⟨rfl, rfl⟩ <;>
        cases value <;> rfl
    | choices joined => exact choices_eq_ok_iff.mpr ⟨_, rfl, joined⟩
    | negation parsed =>
      change parseField field _ >>= _ = _
      rw [parsed]
      rfl

theorem parseField_eq_ok_iff : parseField field value = .ok expr ↔ FieldRead field value expr := by
  constructor
  · intro parsed
    cases value with
    | object members =>
      rw [parseField] at parsed
      split at parsed
      case isTrue => cases parsed
      case isFalse nonempty =>
      have some : members ≠ [] := by simpa using nonempty
      split at parsed
      case isTrue operators =>
        obtain ⟨parts, within, done⟩ := bind_eq_ok_iff.mp parsed
        refine .operators operators ?_ (joined_eq_ok_iff.mp done)
        exact (parseOperators_eq_ok_iff.mp within).imp fun _ _ => parseOperator_eq_ok_iff.mp
      case isFalse plain =>
        cases parsed
        exact .embedded some (by simpa using plain)
    | _ =>
      cases parsed
      exact .value (by simp)
  · intro read
    cases read with
    | value plain =>
      cases value with
      | object members => exact absurd rfl (plain members)
      | _ => rfl
    | @embedded members nonempty plain => simp [parseField, nonempty, plain]
    | @operators members parts _ operators read joined =>
      have nonempty : members ≠ [] := by
        rintro rfl
        cases operators
      have within : parseOperators field members = .ok parts :=
        parseOperators_eq_ok_iff.mpr (read.imp fun _ _ => parseOperator_eq_ok_iff.mpr)
      rw [parseField, if_neg (by simpa using nonempty), if_pos operators]
      exact bind_eq_ok_iff.mpr ⟨parts, within, joined_eq_ok_iff.mpr joined⟩

theorem parseClause_eq_ok_iff : parseClause member = .ok expr ↔ ClauseRead member expr := by
  obtain ⟨key, value⟩ := member
  constructor
  · intro parsed
    rw [parseClause_eq] at parsed
    split at parsed
    case isTrue every =>
      subst every
      cases value with
      | array items =>
        obtain ⟨parts, within, done⟩ := bind_eq_ok_iff.mp parsed
        exact .both (parseAll_eq_ok_iff.mp within) (joined_eq_ok_iff.mp done)
      | _ => cases parsed
    case isFalse =>
    split at parsed
    case isTrue either =>
      subst either
      cases value with
      | array items =>
        obtain ⟨parts, within, done⟩ := bind_eq_ok_iff.mp parsed
        exact .either (parseAll_eq_ok_iff.mp within) (joined_eq_ok_iff.mp done)
      | _ => cases parsed
    case isFalse =>
    split at parsed
    case isTrue => cases parsed
    case isFalse plain => exact .field (by simpa using plain) parsed
  · intro read
    cases read with
    | both parsed joined =>
      exact bind_eq_ok_iff.mpr ⟨_, parseAll_eq_ok_iff.mpr parsed, joined_eq_ok_iff.mpr joined⟩
    | either parsed joined =>
      exact bind_eq_ok_iff.mpr ⟨_, parseAll_eq_ok_iff.mpr parsed, joined_eq_ok_iff.mpr joined⟩
    | field plain parsed =>
      have notAnd : key ≠ "$and" := by
        rintro rfl
        cases plain
      have notOr : key ≠ "$or" := by
        rintro rfl
        cases plain
      rw [parseClause_eq, if_neg notAnd, if_neg notOr, if_neg (by simp [plain])]
      exact parsed

theorem parse_eq_ok_iff : parse filter = .ok expr ↔ ∃ members parts, filter = .object members ∧
    List.Forall₂ ClauseRead members parts ∧ Expr.join? .both parts = some expr := by
  cases filter with
  | object members =>
    simp only [parse, bind_eq_ok_iff, parseClauses_eq_ok_iff, parseClause_eq_ok_iff, joined_eq_ok_iff,
      Json.object.injEq, exists_eq_left', exists_and_left]
  | _ => simp [parse]

/-- A truth of filters and their members that goes by what they hold is the truth of the expressions they are
read as, if it is for what is asked of the fields. -/
theorem parse_means (Means : Expr → Bool → Prop) (truth : Json → Bool) (clauseTruth : String × Json → Bool)
    (both : ∀ {left right first second}, Means left first → Means right second →
      Means (.both left right) (first && second))
    (either : ∀ {left right first second}, Means left first → Means right second →
      Means (.either left right) (first || second))
    (field : ∀ {key value expr}, isOperator key = false → parseField key value = .ok expr →
      Means expr (clauseTruth (key, value)))
    (everyClause : ∀ members, truth (.object members) = (members.map clauseTruth).and)
    (everyFilter : ∀ items, clauseTruth ("$and", .array items) = (items.map truth).and)
    (someFilter : ∀ items, clauseTruth ("$or", .array items) = (items.map truth).or)
    (parsed : parse filter = .ok expr) : Means expr (truth filter) := by
  -- A clause holds filters inside an array, so the induction is on what a value means in either place.
  suffices holds : (∀ expr, parse filter = .ok expr → Means expr (truth filter)) ∧
      ∀ key expr, ClauseRead (key, filter) expr → Means expr (clauseTruth (key, filter)) from
    holds.1 expr parsed
  clear parsed
  induction filter using Json.nested with
  | object members ih =>
    constructor
    · intro expr parsed
      obtain ⟨_, parts, same, read, joined⟩ := parse_eq_ok_iff.mp parsed
      cases same
      rw [everyClause]
      exact Expr.means_and _ both
        (Expr.means_map _ (fun member here part => (ih member here).2 member.1 part) read) joined
    · intro key expr read
      cases read with
      | field plain parsed => exact field plain parsed
  | array items ih =>
    have each : ∀ item ∈ items, ∀ part, parse item = .ok part → Means part (truth item) :=
      fun item here => (ih item here).1
    constructor
    · intro expr parsed
      cases parsed
    · intro key expr read
      cases read with
      | both read joined =>
        rw [everyFilter]
        exact Expr.means_and _ both (Expr.means_map _ each read) joined
      | either read joined =>
        rw [someFilter]
        exact Expr.means_or _ either (Expr.means_map _ each read) joined
      | field plain parsed => exact field plain parsed
  | _ =>
    constructor
    · intro expr parsed
      cases parsed
    · intro key expr read
      cases read with
      | field plain parsed => exact field plain parsed

end Filter

end DocStore
