import DocStore.Proofs.Collection.Search
import DocStore.Proofs.Query.Filter

namespace DocStore

/-- The constants that name a record by a 32-bit natural: the integers of its range. -/
inductive Json.NamesNatural : Json → UInt32 → Prop
  | integer {value : Int} {id : UInt32} (least : 0 ≤ value) (greatest : value < 2 ^ 32)
      (same : (id.toNat : Int) = value) : NamesNatural (.number (.integer value)) id

/-- The constants that name a record by a 64-bit integer: the integers of its range. -/
inductive Json.NamesInteger : Json → Int64 → Prop
  | integer {value : Int} {id : Int64} (least : -2 ^ 63 ≤ value) (greatest : value < 2 ^ 63)
      (same : id.toInt = value) : NamesInteger (.number (.integer value)) id

/-- The constants that name a record by a text: the text itself, or a number or truth value that is found
under the text in an index. -/
inductive Json.NamesText : Json → String → Prop
  | string (contents : String) : NamesText (.string contents) contents
  | number {value : Number} {id : String} (shown : IndexValue.ofJson (.number value) = .text id) :
      NamesText (.number value) id
  | boolean {value : Bool} {id : String} (shown : IndexValue.ofJson (.boolean value) = .text id) :
      NamesText (.boolean value) id

namespace Json

theorem integerWithin_eq_ok_iff {least greatest whole : Int} {wanted : String} {value : Json} :
    value.integerWithin least greatest wanted = .ok whole ↔
      value = .number (.integer whole) ∧ least ≤ whole ∧ whole ≤ greatest := by
  constructor
  · intro read
    unfold integerWithin at read
    split at read
    case h_1 found =>
      split at read
      case isTrue within =>
        cases read
        exact ⟨rfl, within⟩
      case isFalse => cases read
    case h_2 => cases read
  · rintro ⟨rfl, within⟩
    simp [integerWithin, within]

end Json

/-- The text that a number or truth value is kept as. -/
def Json.shownText? : Json → Option String
  | .number value => some (IndexValue.ofJson (.number value)).display
  | .boolean value => some (if value then "true" else "false")
  | _ => none

section

variable {ι : Type} [Identifier ι] {value : Json} {id : ι} {error : ReadError}

/-- The identifier that a value is read as, or the text of a number or truth value that is none itself. -/
inductive Json.Names (value : Json) (id : ι) : Prop
  | plain (read : Identifier.ofJson value = .ok id)
  | shown {text : String} (unread : ∀ other : ι, Identifier.ofJson value ≠ .ok other)
      (kept : value.shownText? = some text) (read : Identifier.ofJson (.string text) = .ok id)

/-- A value that names no identifier, and how reading it fails. -/
structure Json.Nameless (ι : Type) [Identifier ι] (value : Json) (error : ReadError) : Prop where
  unread : (Identifier.ofJson value : Except ReadError ι) = .error error
  unshown : ∀ text (other : ι), value.shownText? = some text → Identifier.ofJson (.string text) ≠ .ok other

theorem identifierOf_of_shown {text : String}
    (unread : (Identifier.ofJson value : Except ReadError ι) = .error error)
    (kept : value.shownText? = some text) :
    (identifierOf value : Except ReadError ι) =
      match (Identifier.ofJson (.string text) : Except ReadError ι) with
      | .ok id => .ok id
      | .error _ => .error error := by
  rw [identifierOf, unread]
  cases value with
  | number found =>
    cases kept
    rfl
  | boolean found =>
    cases kept
    cases found <;> rfl
  | _ => cases kept

theorem identifierOf_of_unshown (unread : (Identifier.ofJson value : Except ReadError ι) = .error error)
    (unkept : value.shownText? = none) : (identifierOf value : Except ReadError ι) = .error error := by
  rw [identifierOf, unread]
  cases value with
  | number found => cases unkept
  | boolean found => cases unkept
  | _ => rfl

theorem identifierOf_cases (ι : Type) [Identifier ι] (value : Json) :
    (∃ id : ι, identifierOf value = .ok id ∧ value.Names id) ∨
      ∃ error, (identifierOf value : Except ReadError ι) = .error error ∧ value.Nameless ι error := by
  cases unread : (Identifier.ofJson value : Except ReadError ι) with
  | ok id => exact .inl ⟨id, by rw [identifierOf, unread], .plain unread⟩
  | error error =>
    have refused (other : ι) : Identifier.ofJson value ≠ .ok other := by
      rw [unread]
      nofun
    cases kept : value.shownText? with
    | none =>
      refine .inr ⟨error, identifierOf_of_unshown unread kept, unread, ?_⟩
      intro text other shown
      rw [kept] at shown
      cases shown
    | some text =>
      have named := identifierOf_of_shown unread kept
      cases read : (Identifier.ofJson (.string text) : Except ReadError ι) with
      | ok id =>
        rw [read] at named
        exact .inl ⟨id, named, .shown refused kept read⟩
      | error cause =>
        rw [read] at named
        refine .inr ⟨error, named, unread, ?_⟩
        intro other id shown
        rw [kept] at shown
        cases shown
        rw [read]
        nofun

theorem Json.Names.unique {other : ι} (names : value.Names id) (same : value.Names other) : id = other := by
  cases names with
  | plain read =>
    cases same with
    | plain again => exact Except.ok.inj (read.symm.trans again)
    | shown unread => exact absurd read (unread id)
  | shown unread kept read =>
    cases same with
    | plain again => exact absurd again (unread other)
    | shown _ keptToo again =>
      cases Option.some.inj (kept.symm.trans keptToo)
      exact Except.ok.inj (read.symm.trans again)

theorem Json.Nameless.not_names (nameless : value.Nameless ι error) (id : ι) : ¬ value.Names id := by
  intro names
  cases names with
  | plain read => exact nomatch nameless.unread.symm.trans read
  | shown _ kept read => exact nameless.unshown _ _ kept read

theorem identifierOf_eq_ok_iff : identifierOf value = .ok id ↔ value.Names id := by
  rcases identifierOf_cases ι value with ⟨other, named, names⟩ | ⟨error, unnamed, nameless⟩
  · rw [named, Except.ok.injEq]
    constructor
    · rintro rfl
      exact names
    · exact fun same => names.unique same
  · rw [unnamed]
    exact ⟨nofun, fun names => absurd names (nameless.not_names id)⟩

theorem identifierOf_eq_error_iff :
    (identifierOf value : Except ReadError ι) = .error error ↔ value.Nameless ι error := by
  rcases identifierOf_cases ι value with ⟨id, named, names⟩ | ⟨other, unnamed, nameless⟩
  · rw [named]
    exact ⟨nofun, fun refused => absurd names (refused.not_names id)⟩
  · rw [unnamed, Except.error.injEq]
    constructor
    · rintro rfl
      exact nameless
    · exact fun refused => Except.error.inj (nameless.unread.symm.trans refused.unread)

/-- Where no text is an identifier, a value is one only as it stands. -/
theorem Json.names_iff_of_textless
    (textless : ∀ contents (id : ι), Identifier.ofJson (.string contents) ≠ .ok id) :
    value.Names id ↔ Identifier.ofJson value = .ok id := by
  constructor
  · intro names
    cases names with
    | plain read => exact read
    | shown _ _ read => exact absurd read (textless _ _)
  · exact .plain

end

theorem identifierOf_natural_iff {value : Json} {id : UInt32} :
    identifierOf value = .ok id ↔ value.NamesNatural id := by
  rw [identifierOf_eq_ok_iff, Json.names_iff_of_textless nofun]
  constructor
  · intro read
    obtain ⟨whole, within, same⟩ := bind_eq_ok_iff.mp read
    obtain ⟨rfl, least, greatest⟩ := Json.integerWithin_eq_ok_iff.mp within
    cases same
    refine .integer least (by omega) ?_
    rw [UInt32.toNat_ofNat_of_lt' (by simp [UInt32.size]; omega)]
    omega
  · intro names
    cases names with
    | @integer whole _ least greatest same =>
      have within : (Json.number (.integer whole)).integerWithin 0 (2 ^ 32 - 1) "u32" = .ok whole :=
        Json.integerWithin_eq_ok_iff.mpr ⟨rfl, least, by omega⟩
      refine bind_eq_ok_iff.mpr ⟨whole, within, ?_⟩
      rw [← same, Int.toNat_natCast, UInt32.ofNat_toNat]
      rfl

theorem identifierOf_integer_iff {value : Json} {id : Int64} :
    identifierOf value = .ok id ↔ value.NamesInteger id := by
  rw [identifierOf_eq_ok_iff, Json.names_iff_of_textless nofun]
  constructor
  · intro read
    obtain ⟨whole, within, same⟩ := bind_eq_ok_iff.mp read
    obtain ⟨rfl, least, greatest⟩ := Json.integerWithin_eq_ok_iff.mp within
    cases same
    exact .integer least (by omega) (Int64.toInt_ofInt_of_le least (by omega))
  · intro names
    cases names with
    | @integer whole _ least greatest same =>
      have within : (Json.number (.integer whole)).integerWithin (-2 ^ 63) (2 ^ 63 - 1) "i64" =
          .ok whole :=
        Json.integerWithin_eq_ok_iff.mpr ⟨rfl, least, by omega⟩
      refine bind_eq_ok_iff.mpr ⟨whole, within, ?_⟩
      rw [← same, Int64.ofInt_toInt]
      rfl

theorem identifierOf_text_iff {value : Json} {id : String} :
    identifierOf value = .ok id ↔ value.NamesText id := by
  constructor
  · intro read
    have shown := identifierOf_ofJson read
    cases value with
    | string contents =>
      cases read
      exact .string _
    | number => exact .number shown
    | boolean => exact .boolean shown
    | _ => cases read
  · intro names
    cases names with
    | string contents => rfl
    | number shown =>
      cases shown
      rfl
    | boolean shown =>
      cases shown
      rfl

namespace Expr

variable {ι : Type} {idMember : String} {scope : Scope} {expr other left right : Expr} {path : Path}
  {value : Json} {reads rest : List Nat} {operation : Operation ι}

/-- The plan of an expression that can be answered, from the reads made before to the reads made after:
each equality of a field with a constant becomes a lookup in its place. -/
inductive Planned (names : Json → ι → Prop) (idMember : String) (scope : Scope) :
    Expr → List Nat → Operation ι → List Nat → Prop
  | identifier {left right : Expr} {value : Json} {id : ι} {reads rest : List Nat}
      (member : left.StandsFor (.member ⟨[idMember]⟩)) (constant : right.Supplies scope reads value rest)
      (named : names value id) :
      Planned names idMember scope (.compare .equal left right) reads (.byId id) rest
  | field {left right : Expr} {path : Path} {value : Json} {reads rest : List Nat}
      (member : left.StandsFor (.member path)) (nonempty : path.segments ≠ [])
      (differs : path.segments ≠ [idMember]) (constant : right.Supplies scope reads value rest) :
      Planned names idMember scope (.compare .equal left right) reads
        (.byField path.indexName (IndexValue.ofJson value)) rest
  | both {left right : Expr} {reads middle rest : List Nat} {first second : Operation ι}
      (former : Planned names idMember scope left reads first middle)
      (latter : Planned names idMember scope right middle second rest) :
      Planned names idMember scope (.both left right) reads (.both first second) rest
  | either {left right : Expr} {reads middle rest : List Nat} {first second : Operation ι}
      (former : Planned names idMember scope left reads first middle)
      (latter : Planned names idMember scope right middle second rest) :
      Planned names idMember scope (.either left right) reads (.either first second) rest

/-- One bare side of an equality, anywhere in the first expression, is under a conversion in the other. -/
inductive Wraps : Expr → Expr → Prop
  | left {left : Expr} (right : Expr) (bare : ∀ inner, left ≠ .convert inner) :
      Wraps (.compare .equal left right) (.compare .equal (.convert left) right)
  | right (left : Expr) {right : Expr} (bare : ∀ inner, right ≠ .convert inner) :
      Wraps (.compare .equal left right) (.compare .equal left (.convert right))
  | inLeft {comparison : Comparison} {left other : Expr} (right : Expr) (within : Wraps left other) :
      Wraps (.compare comparison left right) (.compare comparison other right)
  | inRight {comparison : Comparison} (left : Expr) {right other : Expr} (within : Wraps right other) :
      Wraps (.compare comparison left right) (.compare comparison left other)
  | inFormer {left other : Expr} (right : Expr) (within : Wraps left other) :
      Wraps (.both left right) (.both other right)
  | inLatter (left : Expr) {right other : Expr} (within : Wraps right other) :
      Wraps (.both left right) (.both left other)
  | inFirst {left other : Expr} (right : Expr) (within : Wraps left other) :
      Wraps (.either left right) (.either other right)
  | inSecond (left : Expr) {right other : Expr} (within : Wraps right other) :
      Wraps (.either left right) (.either left other)
  | negated {inner other : Expr} (within : Wraps inner other) : Wraps (.negation inner) (.negation other)
  | converted {inner other : Expr} (within : Wraps inner other) : Wraps (.convert inner) (.convert other)

section

variable [Identifier ι] {names : Json → ι → Prop}

theorem lookup_eq_ok_iff :
    lookup idMember path value = .ok operation ↔
      (∃ id, path = ⟨[idMember]⟩ ∧ identifierOf value = .ok id ∧ operation = .byId id) ∨
        path.segments ≠ [idMember] ∧
          operation = .byField path.indexName (IndexValue.ofJson value) := by
  have isMember : path.isMember idMember = true ↔ path = ⟨[idMember]⟩ := by
    obtain ⟨segments⟩ := path
    simp [Path.isMember]
  unfold lookup
  by_cases named : path.isMember idMember
  · obtain rfl := isMember.mp named
    rw [if_pos named]
    cases read : (identifierOf value : Except ReadError ι) <;> simp [eq_comm]
  · have differs : path.segments ≠ [idMember] := by simpa [Path.isMember] using named
    have other : path ≠ ⟨[idMember]⟩ := mt isMember.mpr named
    simp [named, differs, other, eq_comm]

theorem planned_iff_compilesTo (exact : ∀ value id, identifierOf value = .ok id ↔ names value id) :
    Planned names idMember scope expr reads operation rest ↔
      CompilesTo idMember scope expr reads operation rest := by
  constructor
  · intro planned
    induction planned with
    | identifier member constant named =>
      refine .equality (memberPath_eq_ok_iff.mpr ⟨member, by simp⟩) (constant_eq_ok_iff.mpr constant) ?_
      exact lookup_eq_ok_iff.mpr (.inl ⟨_, rfl, (exact _ _).mpr named, rfl⟩)
    | field member nonempty differs constant =>
      refine .equality (memberPath_eq_ok_iff.mpr ⟨member, nonempty⟩) (constant_eq_ok_iff.mpr constant) ?_
      exact lookup_eq_ok_iff.mpr (.inr ⟨differs, rfl⟩)
    | both _ _ former latter => exact .both former latter
    | either _ _ former latter => exact .either former latter
  · intro compiles
    induction compiles with
    | equality named constant found =>
      obtain ⟨member, nonempty⟩ := memberPath_eq_ok_iff.mp named
      have constant := constant_eq_ok_iff.mp constant
      obtain ⟨id, rfl, read, rfl⟩ | ⟨differs, rfl⟩ := lookup_eq_ok_iff.mp found
      · exact .identifier member constant ((exact _ _).mp read)
      · exact .field member nonempty differs constant
    | both _ _ former latter => exact .both former latter
    | either _ _ former latter => exact .either former latter

end

/-- Both expressions stand for the same fields and constants. -/
def Alike (expr other : Expr) : Prop :=
  ∀ inner, inner.Leaf → (other.StandsFor inner ↔ expr.StandsFor inner)

theorem alike_refl (expr : Expr) : Alike expr expr := fun _ _ => Iff.rfl

theorem alike_convert (bare : ∀ below, expr ≠ .convert below) : Alike expr (.convert expr) := by
  intro inner leaf
  constructor
  · rintro (rfl | same)
    · cases leaf
    · exact .inl (Expr.convert.inj same)
  · rintro (rfl | same)
    · exact .inr rfl
    · exact absurd same (bare inner)

/-- What holds an equality stands for no field and no constant. -/
theorem Wraps.alike (wraps : Wraps expr other) : Alike expr other := by
  intro inner leaf
  refine iff_of_false ?_ ?_
  · rintro (rfl | rfl)
    · cases leaf <;> cases wraps
    · cases wraps with
      | converted within => cases leaf <;> cases within
  · rintro (rfl | rfl)
    · cases leaf <;> cases wraps
    · cases wraps with
      | converted within => cases leaf <;> cases within

theorem Alike.supplies_iff (alike : Alike expr other) :
    other.Supplies scope reads value rest ↔ expr.Supplies scope reads value rest := by
  constructor
  · intro supplies
    cases supplies with
    | literal stands => exact .literal ((alike _ (.literal value)).mp stands)
    | captured stands read => exact .captured ((alike _ (.captured _)).mp stands) read
  · intro supplies
    cases supplies with
    | literal stands => exact .literal ((alike _ (.literal value)).mpr stands)
    | captured stands read => exact .captured ((alike _ (.captured _)).mpr stands) read

section

variable {names : Json → ι → Prop}

theorem planned_compare_congr {comparison : Comparison} {left' right' : Expr} (former : Alike left left')
    (latter : Alike right right') :
    Planned names idMember scope (.compare comparison left' right') reads operation rest ↔
      Planned names idMember scope (.compare comparison left right) reads operation rest := by
  constructor
  · intro planned
    cases planned with
    | identifier member constant named =>
      exact .identifier ((former _ (.member _)).mp member) (latter.supplies_iff.mp constant) named
    | field member nonempty differs constant =>
      exact .field ((former _ (.member _)).mp member) nonempty differs (latter.supplies_iff.mp constant)
  · intro planned
    cases planned with
    | identifier member constant named =>
      exact .identifier ((former _ (.member _)).mpr member) (latter.supplies_iff.mpr constant) named
    | field member nonempty differs constant =>
      exact .field ((former _ (.member _)).mpr member) nonempty differs (latter.supplies_iff.mpr constant)

theorem planned_both_iff :
    Planned names idMember scope (.both left right) reads operation rest ↔
      ∃ first middle second, Planned names idMember scope left reads first middle ∧
        Planned names idMember scope right middle second rest ∧ operation = .both first second := by
  constructor
  · intro planned
    cases planned with
    | both former latter => exact ⟨_, _, _, former, latter, rfl⟩
  · rintro ⟨first, middle, second, former, latter, rfl⟩
    exact .both former latter

theorem planned_either_iff :
    Planned names idMember scope (.either left right) reads operation rest ↔
      ∃ first middle second, Planned names idMember scope left reads first middle ∧
        Planned names idMember scope right middle second rest ∧ operation = .either first second := by
  constructor
  · intro planned
    cases planned with
    | either former latter => exact ⟨_, _, _, former, latter, rfl⟩
  · rintro ⟨first, middle, second, former, latter, rfl⟩
    exact .either former latter

/-- A conversion around a side of an equality leaves the plan as it is. -/
theorem Wraps.planned_iff (wraps : Wraps expr other) :
    Planned names idMember scope other reads operation rest ↔
      Planned names idMember scope expr reads operation rest := by
  induction wraps generalizing reads operation rest with
  | left right bare => exact planned_compare_congr (alike_convert bare) (alike_refl right)
  | right left bare => exact planned_compare_congr (alike_refl left) (alike_convert bare)
  | inLeft right within => exact planned_compare_congr within.alike (alike_refl right)
  | inRight left within => exact planned_compare_congr (alike_refl left) within.alike
  | inFormer right _ ih => simp only [planned_both_iff, ih]
  | inLatter left _ ih => simp only [planned_both_iff, ih]
  | inFirst right _ ih => simp only [planned_either_iff, ih]
  | inSecond left _ ih => simp only [planned_either_iff, ih]
  | negated | converted =>
    refine iff_of_false ?_ ?_
    · rintro ⟨⟩
    · rintro ⟨⟩

end

end Expr

namespace Collection

variable {σ τ α ι : Type} [Record α ι] [Identifier ι]

/-- The collection answers just the expressions that have a plan, by their plan, where constants name
records as said; a conversion around a bare side of an equality makes no difference to it. -/
structure PlansExactly (collection : Collection σ τ α ι) (names : Json → ι → Prop) : Prop where
  planned (scope : Scope) (expr : Expr) (operation : Operation ι) :
    collection.plan scope expr = .ok operation ↔
      ∃ rest, expr.Planned names (Record.idMember α) scope [] operation rest
  refused (scope : Scope) (expr : Expr)
    (unplanned : ¬ ∃ operation rest, expr.Planned names (Record.idMember α) scope [] operation rest) :
    ∃ reason, collection.plan scope expr = .error (.unsupportedPredicate reason)
  converted (scope : Scope) {expr other : Expr} (wraps : expr.Wraps other) (operation : Operation ι) :
    collection.plan scope other = .ok operation ↔ collection.plan scope expr = .ok operation

theorem plansExactly {names : Json → ι → Prop}
    (exact : ∀ value id, identifierOf value = .ok id ↔ names value id) (collection : Collection σ τ α ι) :
    collection.PlansExactly names := by
  have planned (scope : Scope) (expr : Expr) (operation : Operation ι) :
      collection.plan scope expr = .ok operation ↔
        ∃ rest, expr.Planned names (Record.idMember α) scope [] operation rest := by
    simp only [plan_eq_ok_iff, Expr.planned_iff_compilesTo exact]
  refine ⟨planned, ?_, ?_⟩
  · intro scope expr unplanned
    cases outcome : collection.plan scope expr with
    | ok operation => exact absurd ⟨operation, (planned scope expr operation).mp outcome⟩ unplanned
    | error cause =>
      obtain ⟨reason, rfl⟩ := plan_eq_error outcome
      exact ⟨reason, rfl⟩
  · intro scope expr other wraps operation
    simp only [planned, wraps.planned_iff]

/-- Whichever type identifies the records, just the equalities of fields with constants, joined by AND and
OR, are answered, each by its lookup and in its place. -/
theorem plan_exact :
    (∀ {σ τ α : Type} [Record α UInt32] (collection : Collection σ τ α UInt32),
      collection.PlansExactly Json.NamesNatural) ∧
    (∀ {σ τ α : Type} [Record α Int64] (collection : Collection σ τ α Int64),
      collection.PlansExactly Json.NamesInteger) ∧
    (∀ {σ τ α : Type} [Record α String] (collection : Collection σ τ α String),
      collection.PlansExactly Json.NamesText) :=
  ⟨plansExactly fun _ _ => identifierOf_natural_iff, plansExactly fun _ _ => identifierOf_integer_iff,
    plansExactly fun _ _ => identifierOf_text_iff⟩

end Collection

end DocStore
