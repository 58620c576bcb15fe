import DocStore.Proofs.Path
import DocStore.Proofs.Query.Parse
import DocStore.Query.Compile
import DocStore.Record

namespace DocStore

variable {α ι : Type}

/-- The index value of the member at a path of the written record; none for a record that refuses to
be written. -/
def Record.valueAt? [Record α ι] (record : α) (path : Path) : Option IndexValue :=
  (Record.toJson record).toOption.map fun json => IndexValue.project json path

namespace Expr

/-- The expression below a conversion. -/
def bare : Expr → Expr
  | .convert inner => inner
  | expr => expr

/-- The field on the left of an equality. -/
def field? (expr : Expr) : Option Path :=
  match expr.bare with
  | .member path => some path
  | _ => none

/-- The constant on the right of an equality, after the captured values read so far, and the reads
made when it is known. -/
def given (scope : Scope) (expr : Expr) (reads : List Nat) : Option Json × List Nat :=
  match expr.bare with
  | .literal value => (some value, reads)
  | .captured slot => ((scope.read reads slot).toOption, slot :: reads)
  | _ => (none, reads)

variable [DecidableEq ι] [Identifier ι]

/-- Whether a record with this id and these index values equals a constant at a path. The identifier
is compared as an identifier, every other field by its index value. -/
def equals (idMember : String) (id : ι) (valueAt : Path → Option IndexValue) (path : Path)
    (value : Json) : Bool :=
  if path.isMember idMember then
    match (identifierOf value : Except ReadError ι) with
    | .ok wanted => decide (id = wanted)
    | .error _ => false
  else decide (valueAt path = some (IndexValue.ofJson value))

/-- Whether a record with this id and these index values satisfies an expression. Captured values are
read from left to right; comparisons other than equality, negations and bare values never hold. -/
def evaluate (idMember : String) (scope : Scope) (id : ι) (valueAt : Path → Option IndexValue) :
    Expr → List Nat → Bool × List Nat
  | .compare .equal left right, reads =>
    let (value, reads) := right.given scope reads
    match left.field?, value with
    | some path, some value => (equals idMember id valueAt path value, reads)
    | _, _ => (false, reads)
  | .both left right, reads =>
    let (first, reads) := evaluate idMember scope id valueAt left reads
    let (second, reads) := evaluate idMember scope id valueAt right reads
    (first && second, reads)
  | .either left right, reads =>
    let (first, reads) := evaluate idMember scope id valueAt left reads
    let (second, reads) := evaluate idMember scope id valueAt right reads
    (first || second, reads)
  | _, reads => (false, reads)

omit [DecidableEq ι] [Identifier ι] in
def fieldPaths (idMember : String) : Expr → List Path
  | .compare .equal left _ => left.field?.toList.filter fun path => !path.isMember idMember
  | .both left right => fieldPaths idMember left ++ fieldPaths idMember right
  | .either left right => fieldPaths idMember left ++ fieldPaths idMember right
  | _ => []

/-- Whether a record satisfies an expression. -/
def holds [Record α ι] (scope : Scope) (record : α) (expr : Expr) : Bool :=
  (expr.evaluate (Record.idMember α) scope (Record.id record) (Record.valueAt? record) []).1

/-- Whether a record satisfies an expression whose fields stand for the ones their names are read
as. -/
def holdsByName [Record α ι] (scope : Scope) (record : α) (expr : Expr) : Bool :=
  (expr.evaluate (Record.idMember α) scope (Record.id record)
    (fun path => Record.valueAt? record path.covered) []).1

theorem evaluate_congr {idMember : String} {scope : Scope} {id : ι}
    {valueAt other : Path → Option IndexValue} {expr : Expr}
    (agree : ∀ path ∈ expr.fieldPaths idMember, valueAt path = other path) (reads : List Nat) :
    expr.evaluate idMember scope id valueAt reads = expr.evaluate idMember scope id other reads := by
  induction expr generalizing reads with
  | member path => rfl
  | literal value => rfl
  | captured slot => rfl
  | convert inner _ => rfl
  | negation inner _ => rfl
  | compare comparison left right _ _ =>
    cases comparison with
    | equal =>
      simp only [evaluate]
      cases found : left.field? with
      | none => rfl
      | some path =>
        cases (right.given scope reads).1 with
        | none => rfl
        | some value =>
          by_cases named : path.isMember idMember
          · simp [equals, named]
          · have same := agree path (by simp [fieldPaths, found, named])
            simp [equals, same]
    | _ => rfl
  | both left right ihLeft ihRight =>
    simp only [fieldPaths, List.mem_append] at agree
    simp only [evaluate, ihLeft (fun path member => agree path (.inl member)),
      ihRight (fun path member => agree path (.inr member))]
  | either left right ihLeft ihRight =>
    simp only [fieldPaths, List.mem_append] at agree
    simp only [evaluate, ihLeft (fun path member => agree path (.inl member)),
      ihRight (fun path member => agree path (.inr member))]

/-- An expression whose paths are all read back from their dotted names means what it says. -/
theorem holdsByName_of_plain [Record α ι] {scope : Scope} {record : α} {expr : Expr}
    (plain : ∀ path ∈ expr.fieldPaths (Record.idMember α), path.Plain) :
    expr.holdsByName scope record = expr.holds scope record := by
  have same : ∀ path ∈ expr.fieldPaths (Record.idMember α),
      Record.valueAt? record path.covered = Record.valueAt? record path := by
    intro path member
    rw [Path.covered_of_plain (plain path member)]
  rw [holdsByName, holds, evaluate_congr same]

end Expr

namespace Operation

/-- Whether a record with this id and these values in the indexes is one a plan looks for. -/
def meets [DecidableEq ι] (id : ι) (valueOf : IndexName → Option IndexValue) : Operation ι → Bool
  | .byId wanted => decide (id = wanted)
  | .byField name value => decide (valueOf name = some value)
  | .both left right => left.meets id valueOf && right.meets id valueOf
  | .either left right => left.meets id valueOf || right.meets id valueOf

end Operation

namespace Expr

theorem bare_of_unconverted {expr inner : Expr} (success : expr.unconverted = .ok inner) :
    expr.bare = inner := by
  cases expr with
  | convert below =>
    cases below with
    | convert _ => simp [unconverted] at success
    | _ => simpa [unconverted, bare] using success
  | _ => simpa [unconverted, bare] using success

section

variable {scope : Scope} {expr : Expr} {path : Path} {value : Json} {reads rest : List Nat}

/-- The expression stands for another one: bare, or under one conversion. -/
def StandsFor (expr inner : Expr) : Prop := expr = inner ∨ expr = .convert inner

/-- Fields and constants, which have no parts. -/
inductive Leaf : Expr → Prop
  | member (path : Path) : Leaf (.member path)
  | literal (value : Json) : Leaf (.literal value)
  | captured (slot : Nat) : Leaf (.captured slot)

theorem unconverted_eq_ok_iff {inner : Expr} (leaf : inner.Leaf) :
    expr.unconverted = .ok inner ↔ expr.StandsFor inner := by
  constructor
  · intro found
    have below := bare_of_unconverted found
    cases expr with
    | convert found => exact .inr (congrArg Expr.convert below)
    | _ => exact .inl below
  · rintro (rfl | rfl) <;> cases leaf <;> rfl

theorem memberPath_eq_ok_iff :
    expr.memberPath = .ok path ↔ expr.StandsFor (.member path) ∧ path.segments ≠ [] := by
  have stands : expr.unconverted = .ok (.member path) ↔ expr.StandsFor (.member path) :=
    unconverted_eq_ok_iff (.member path)
  rw [← stands, memberPath, bind_eq_ok_iff]
  constructor
  · rintro ⟨inner, found, named⟩
    cases inner with
    | member path =>
      dsimp only at named
      split at named
      case isTrue => cases named
      case isFalse nonempty =>
        cases named
        exact ⟨found, by simpa [Path.isEmpty] using nonempty⟩
    | _ => cases named
  · rintro ⟨found, nonempty⟩
    exact ⟨_, found, if_neg (by simpa [Path.isEmpty] using nonempty)⟩

theorem field?_of_memberPath (success : expr.memberPath = .ok path) : expr.field? = some path := by
  obtain ⟨rfl | rfl, _⟩ := memberPath_eq_ok_iff.mp success <;> rfl

/-- The expression is a constant with this value, after the captured values read so far, and the reads
made when it is known. -/
inductive Supplies (scope : Scope) : Expr → List Nat → Json → List Nat → Prop
  | literal {expr : Expr} {value : Json} {reads : List Nat} (stands : expr.StandsFor (.literal value)) :
      Supplies scope expr reads value reads
  | captured {expr : Expr} {slot : Nat} {value : Json} {reads : List Nat}
      (stands : expr.StandsFor (.captured slot)) (read : scope.read reads slot = .ok value) :
      Supplies scope expr reads value (slot :: reads)

theorem constant_eq_ok_iff :
    (expr.constant scope).run reads = (.ok value, rest) ↔ expr.Supplies scope reads value rest := by
  constructor
  · intro read
    unfold constant at read
    cases found : expr.unconverted with
    | error cause =>
      rw [found] at read
      cases read
    | ok inner =>
      rw [found] at read
      cases inner with
      | literal known =>
        have same : (Except.ok known, reads) = ((.ok value, rest) : Except Unsupported Json × _) := read
        cases same
        exact .literal ((unconverted_eq_ok_iff (.literal _)).mp found)
      | captured slot =>
        change readCaptured scope slot reads = _ at read
        unfold readCaptured at read
        split at read
        case h_1 known given =>
          cases read
          exact .captured ((unconverted_eq_ok_iff (.captured slot)).mp found) given
        case h_2 => cases read
      | _ => cases read
  · intro supplies
    unfold constant
    cases supplies with
    | literal stands =>
      rw [(unconverted_eq_ok_iff (.literal value)).mpr stands]
      rfl
    | captured stands given =>
      rw [(unconverted_eq_ok_iff (.captured _)).mpr stands]
      change readCaptured scope _ reads = _
      rw [readCaptured, given]

theorem given_of_constant (success : (expr.constant scope).run reads = (.ok value, rest)) :
    expr.given scope reads = (some value, rest) := by
  cases constant_eq_ok_iff.mp success with
  | literal stands => obtain rfl | rfl := stands <;> rfl
  | captured stands read => obtain rfl | rfl := stands <;> simp [given, bare, read, Except.toOption]

end

theorem bind_run {β γ : Type} (step : Compilation β) (next : β → Compilation γ)
    (reads : List Nat) :
    (step >>= next).run reads =
      match step.run reads with
      | (.error cause, rest) => (.error cause, rest)
      | (.ok value, rest) => (next value).run rest := by
  change (match step.run reads with | (outcome, rest) => ExceptT.bindCont next outcome rest) = _
  cases step.run reads with
  | mk outcome rest => cases outcome <;> rfl

/-- How an accepted expression becomes a plan, from the reads made before to the reads made after. -/
inductive CompilesTo [Identifier ι] (idMember : String) (scope : Scope) :
    Expr → List Nat → Operation ι → List Nat → Prop where
  | equality {left right : Expr} {path : Path} {value : Json} {reads rest : List Nat}
      {operation : Operation ι} (named : left.memberPath = .ok path)
      (constant : (right.constant scope).run reads = (.ok value, rest))
      (found : lookup idMember path value = .ok operation) :
      CompilesTo idMember scope (.compare .equal left right) reads operation rest
  | both {left right : Expr} {reads middle rest : List Nat} {first second : Operation ι}
      (former : CompilesTo idMember scope left reads first middle)
      (latter : CompilesTo idMember scope right middle second rest) :
      CompilesTo idMember scope (.both left right) reads (.both first second) rest
  | either {left right : Expr} {reads middle rest : List Nat} {first second : Operation ι}
      (former : CompilesTo idMember scope left reads first middle)
      (latter : CompilesTo idMember scope right middle second rest) :
      CompilesTo idMember scope (.either left right) reads (.either first second) rest

section

variable [Identifier ι] {idMember : String} {scope : Scope} {operation : Operation ι}
  {reads rest : List Nat}

omit [Identifier ι] in
private theorem pair_run {combine : Operation ι → Operation ι → Operation ι}
    {left right : Compilation (Operation ι)}
    (success : (do
        let left ← left
        let right ← right
        pure (combine left right) : Compilation (Operation ι)).run reads = (.ok operation, rest)) :
    ∃ first middle second, left.run reads = (.ok first, middle) ∧
      right.run middle = (.ok second, rest) ∧ operation = combine first second := by
  rw [bind_run] at success
  split at success
  case h_1 => cases success
  case h_2 first middle former =>
    rw [bind_run] at success
    split at success
    case h_1 => cases success
    case h_2 second last latter =>
      cases success
      exact ⟨first, middle, second, former, latter, rfl⟩

theorem compilesTo_of_run {expr : Expr}
    (success : (expr.compile idMember scope).run reads = (.ok operation, rest)) :
    CompilesTo idMember scope expr reads operation rest := by
  induction expr generalizing operation reads rest with
  | compare comparison left right _ _ =>
    cases comparison with
    | equal =>
      rw [compile, bind_run] at success
      cases named : left.memberPath with
      | error cause => rw [named] at success; cases success
      | ok path =>
        rw [named] at success
        change (right.constant scope >>= _ : Compilation _).run reads = _ at success
        rw [bind_run] at success
        split at success
        case h_1 => cases success
        case h_2 value middle constant =>
          cases found : (lookup idMember path value : Except Unsupported (Operation ι)) with
          | error cause => rw [found] at success; cases success
          | ok plan =>
            rw [found] at success
            cases success
            exact .equality named constant found
    | _ => cases success
  | both left right ihLeft ihRight =>
    obtain ⟨first, middle, second, former, latter, rfl⟩ := pair_run success
    exact .both (ihLeft former) (ihRight latter)
  | either left right ihLeft ihRight =>
    obtain ⟨first, middle, second, former, latter, rfl⟩ := pair_run success
    exact .either (ihLeft former) (ihRight latter)
  | _ => cases success

/-- Just the accepted expressions compile, each to its plan. -/
theorem run_eq_ok_iff {expr : Expr} :
    (expr.compile idMember scope).run reads = (.ok operation, rest) ↔
      CompilesTo idMember scope expr reads operation rest := by
  refine ⟨compilesTo_of_run, fun compiles => ?_⟩
  induction compiles with
  | @equality left right path value reads rest _ named constant found =>
    rw [compile, named]
    change (right.constant scope >>= _ : Compilation _).run reads = _
    rw [bind_run, constant]
    change ((lookup idMember path value : Except Unsupported (Operation ι)), rest) = _
    rw [found]
  | both _ _ former latter =>
    rw [compile, bind_run, former]
    dsimp only
    rw [bind_run, latter]
    rfl
  | either _ _ former latter =>
    rw [compile, bind_run, former]
    dsimp only
    rw [bind_run, latter]
    rfl

/-- A plan needs the indexes named after the fields of its expression, in their order. -/
theorem CompilesTo.indexNames {expr : Expr}
    (compiles : CompilesTo idMember scope expr reads operation rest) :
    operation.indexNames = (expr.fieldPaths idMember).map Path.indexName := by
  induction compiles with
  | @equality left right path value _ _ operation named constant found =>
    simp only [fieldPaths, field?_of_memberPath named]
    unfold lookup at found
    split at found
    case isTrue identifier =>
      split at found
      · cases found
        simp [Operation.indexNames, identifier]
      · cases found
    case isFalse member =>
      cases found
      simp [Operation.indexNames, member]
  | both _ _ ihFormer ihLatter => simp [Operation.indexNames, fieldPaths, ihFormer, ihLatter]
  | either _ _ ihFormer ihLatter => simp [Operation.indexNames, fieldPaths, ihFormer, ihLatter]

end

variable [DecidableEq ι] [Identifier ι] {idMember : String} {scope : Scope} {id : ι}
  {valueOf : IndexName → Option IndexValue}

private theorem lookup_meets {path : Path} {value : Json} {operation : Operation ι}
    (success : lookup idMember path value = .ok operation) :
    equals idMember id (fun path => valueOf path.indexName) path value =
      operation.meets id valueOf := by
  unfold lookup at success
  unfold equals
  split at success
  case isTrue named =>
    rw [if_pos named]
    cases read : (identifierOf value : Except ReadError ι) with
    | error cause =>
      rw [read] at success
      cases success
    | ok wanted =>
      rw [read] at success
      cases success
      rfl
  case isFalse differs =>
    rw [if_neg differs]
    cases success
    rfl

/-- A plan says of a record what its expression says, its fields looked at by the names of their
indexes; and the captured values are read alike. -/
theorem CompilesTo.evaluate {expr : Expr} {operation : Operation ι} {reads rest : List Nat}
    (compiles : CompilesTo idMember scope expr reads operation rest) (id : ι)
    (valueOf : IndexName → Option IndexValue) :
    expr.evaluate idMember scope id (fun path => valueOf path.indexName) reads =
      (operation.meets id valueOf, rest) := by
  induction compiles with
  | equality named constant found =>
    simp only [Expr.evaluate, given_of_constant constant, field?_of_memberPath named,
      lookup_meets found]
  | both _ _ ihFormer ihLatter => simp only [Expr.evaluate, ihFormer, ihLatter, Operation.meets]
  | either _ _ ihFormer ihLatter => simp only [Expr.evaluate, ihFormer, ihLatter, Operation.meets]

end Expr

end DocStore
