import DocStore.Proofs.Query.Answerable

/-! Which captured values a compilation reads, and in which order. The operands of an expression are
visited from left to right up to the first one that is rejected. An equality reads its constant once its
left side is known to be a field; nothing else is ever read, and no text about an expression depends on
its captured values. -/
namespace DocStore

variable {ι : Type}

/-- One leaf of a plan. -/
inductive Lookup (ι : Type) where
  | byId (id : ι)
  | byField (name : IndexName) (value : IndexValue)
deriving DecidableEq, Repr

def Operation.lookups : Operation ι → List (Lookup ι)
  | .byId id => [.byId id]
  | .byField name value => [.byField name value]
  | .both left right => left.lookups ++ right.lookups
  | .either left right => left.lookups ++ right.lookups

namespace Expr

/-- The parts of an expression that AND and OR join, from left to right. -/
def operands : Expr → List Expr
  | .both left right => left.operands ++ right.operands
  | .either left right => left.operands ++ right.operands
  | operand => [operand]

/-- All captured values in an expression, wherever they stand, from left to right. -/
def captures : Expr → List Nat
  | .captured slot => [slot]
  | .member _ => []
  | .literal _ => []
  | .convert inner => inner.captures
  | .negation inner => inner.captures
  | .compare _ left right => left.captures ++ right.captures
  | .both left right => left.captures ++ right.captures
  | .either left right => left.captures ++ right.captures

/-- The expression stands for a field: it is one, or one under a conversion. -/
def Selects (expr : Expr) (path : Path) : Prop := expr.StandsFor (.member path) ∧ path.segments ≠ []

/-- The captured value that an expression stands for. -/
def capture? (expr : Expr) : Option Nat :=
  match expr.bare with
  | .captured slot => some slot
  | _ => none

/-- The captured value that is read for an operand: the one on the right of an equality, under at most
one conversion, if there is a field on the left. -/
def reading? : Expr → Option Nat
  | .compare .equal left right =>
    match left.field? with
    | some ⟨_ :: _⟩ => right.capture?
    | _ => none
  | _ => none

/-- The operand is no equality. -/
def Unanswerable (operand : Expr) : Prop :=
  operand.operands = [operand] ∧ ∀ left right, operand ≠ .compare .equal left right

section

variable [Identifier ι]

/-- Some operands are all accepted, one after the other: from the reads made before to the reads made
after. The lookup of an equality is by the identifier that its constant names, or in the index of its field
under the key of its constant. -/
inductive Accepts (idMember : String) (scope : Scope) :
    List Expr → List Nat → List (Lookup ι) → List Nat → Prop
  | none {reads : List Nat} : Accepts idMember scope [] reads [] reads
  | identifier {left right : Expr} {operands : List Expr} {value : Json} {id : ι}
      {leaves : List (Lookup ι)} {reads middle rest : List Nat}
      (selects : left.Selects ⟨[idMember]⟩) (supplied : right.Supplies scope reads value middle)
      (names : value.Names id) (later : Accepts idMember scope operands middle leaves rest) :
      Accepts idMember scope (.compare .equal left right :: operands) reads (.byId id :: leaves) rest
  | field {left right : Expr} {operands : List Expr} {path : Path} {value : Json}
      {leaves : List (Lookup ι)} {reads middle rest : List Nat}
      (selects : left.Selects path) (differs : path.segments ≠ [idMember])
      (supplied : right.Supplies scope reads value middle)
      (later : Accepts idMember scope operands middle leaves rest) :
      Accepts idMember scope (.compare .equal left right :: operands) reads
        (.byField path.indexName (IndexValue.ofJson value) :: leaves) rest

/-- An operand is rejected for a reason, from the reads made before to the reads made after. -/
inductive Rejects (ι : Type) [Identifier ι] (idMember : String) (scope : Scope) :
    Expr → List Nat → Unsupported → List Nat → Prop
  | unanswerable {operand : Expr} {reads : List Nat} (other : operand.Unanswerable) :
      Rejects ι idMember scope operand reads (.notAnswerable operand) reads
  | nestedMember {inner right : Expr} {reads : List Nat} :
      Rejects ι idMember scope (.compare .equal (.convert (.convert inner)) right) reads
        .nestedConversion reads
  | member {left right found : Expr} {reads : List Nat} (stands : left.StandsFor found)
      (bare : ∀ inner, found ≠ .convert inner)
      (pathless : ∀ path, found = .member path → path.segments = []) :
      Rejects ι idMember scope (.compare .equal left right) reads (.notMember found) reads
  | nestedConstant {left inner : Expr} {path : Path} {reads : List Nat} (selects : left.Selects path) :
      Rejects ι idMember scope (.compare .equal left (.convert (.convert inner))) reads
        .nestedConversion reads
  | constant {left right found : Expr} {path : Path} {reads : List Nat} (selects : left.Selects path)
      (stands : right.StandsFor found) (bare : ∀ inner, found ≠ .convert inner)
      (unwritten : ∀ value, found ≠ .literal value) (uncaptured : ∀ slot, found ≠ .captured slot) :
      Rejects ι idMember scope (.compare .equal left right) reads (.notConstant found) reads
  | unreadable {left right : Expr} {path : Path} {slot : Nat} {reason : String} {reads : List Nat}
      (selects : left.Selects path) (stands : right.StandsFor (.captured slot))
      (unread : scope.read reads slot = .error reason) :
      Rejects ι idMember scope (.compare .equal left right) reads (.unreadable reason) (slot :: reads)
  | identifier {left right : Expr} {value : Json} {error : ReadError} {reads rest : List Nat}
      (selects : left.Selects ⟨[idMember]⟩) (supplied : right.Supplies scope reads value rest)
      (nameless : value.Nameless ι error) :
      Rejects ι idMember scope (.compare .equal left right) reads
        (.badIdentifier value idMember error) rest

/-- How a visit of some operands ends. -/
inductive Ends (idMember : String) (scope : Scope) (operands : List Expr) (reads : List Nat) :
    Except Unsupported (Operation ι) × List Nat → Prop
  | accepted {operation : Operation ι} {rest : List Nat}
      (accepts : Accepts idMember scope operands reads operation.lookups rest) :
      Ends idMember scope operands reads (.ok operation, rest)
  | rejected {before later : List Expr} {stop : Expr} {leaves : List (Lookup ι)}
      {middle rest : List Nat} {cause : Unsupported} (split : operands = before ++ stop :: later)
      (accepts : Accepts idMember scope before reads leaves middle)
      (rejects : Rejects ι idMember scope stop middle cause rest) :
      Ends idMember scope operands reads (.error cause, rest)

variable {idMember : String} {scope : Scope} {left right stop : Expr} {before later : List Expr}
  {leaves more : List (Lookup ι)} {reads middle rest : List Nat} {cause : Unsupported}

theorem Accepts.append (former : Accepts idMember scope before reads leaves middle)
    (latter : Accepts idMember scope later middle more rest) :
    Accepts idMember scope (before ++ later) reads (leaves ++ more) rest := by
  induction former with
  | none => exact latter
  | identifier selects supplied names _ ih => exact .identifier selects supplied names (ih latter)
  | field selects differs supplied _ ih => exact .field selects differs supplied (ih latter)

theorem ends_rejected (rejects : Rejects ι idMember scope stop reads cause rest) :
    Ends idMember scope [stop] reads ((.error cause : Except Unsupported (Operation ι)), rest) := by
  have split : [stop] = [] ++ stop :: [] := rfl
  exact .rejected split .none rejects

theorem ends_pair {former latter : Compilation (Operation ι)}
    {combine : Operation ι → Operation ι → Operation ι}
    (joins : ∀ first second, (combine first second).lookups = first.lookups ++ second.lookups)
    (first : Ends idMember scope before reads (former.run reads))
    (second : ∀ middle, Ends idMember scope later middle (latter.run middle)) :
    Ends idMember scope (before ++ later) reads ((do
      let left ← former
      let right ← latter
      pure (combine left right) : Compilation (Operation ι)).run reads) := by
  rw [bind_run]
  rcases ended : former.run reads with ⟨cause | operation, middle⟩
  · rw [ended] at first
    cases first with
    | rejected split accepts rejects =>
      exact .rejected (by rw [split, List.append_assoc, List.cons_append]) accepts rejects
  · rw [ended] at first
    cases first with
    | accepted accepts =>
      dsimp only
      rw [bind_run]
      have second := second middle
      rcases ended : latter.run middle with ⟨cause | other, rest⟩
      · rw [ended] at second
        cases second with
        | rejected split further rejects =>
          exact .rejected (by rw [split, List.append_assoc]) (accepts.append further) rejects
      · rw [ended] at second
        cases second with
        | accepted further =>
          refine .accepted ?_
          rw [joins]
          exact accepts.append further

/-- Once there is a field on the left and a constant on the right, only an identifier can be missing. -/
theorem ends_lookup {path : Path} {value : Json} (selects : left.Selects path)
    (supplied : right.Supplies scope reads value rest) :
    Ends idMember scope [.compare .equal left right] reads
      ((lookup idMember path value : Except Unsupported (Operation ι)), rest) := by
  rw [lookup]
  by_cases named : path.isMember idMember
  · have whole : path = ⟨[idMember]⟩ := by
      obtain ⟨segments⟩ := path
      simpa [Path.isMember] using named
    subst whole
    rw [if_pos named]
    cases read : (identifierOf value : Except ReadError ι) with
    | ok id => exact .accepted (.identifier selects supplied (identifierOf_eq_ok_iff.mp read) .none)
    | error error =>
      exact ends_rejected (.identifier selects supplied (identifierOf_eq_error_iff.mp read))
  · have differs : path.segments ≠ [idMember] := by simpa [Path.isMember] using named
    rw [if_neg named]
    exact .accepted (.field selects differs supplied .none)

theorem unconverted_cases (expr : Expr) :
    (∃ inner, expr = .convert (.convert inner) ∧ expr.unconverted = .error .nestedConversion) ∨
      ∃ found, expr.StandsFor found ∧ (∀ inner, found ≠ .convert inner) ∧
        expr.unconverted = .ok found := by
  cases expr with
  | convert found =>
    cases found with
    | convert inner => exact .inl ⟨inner, rfl, rfl⟩
    | _ => exact .inr ⟨_, .inr rfl, nofun, rfl⟩
  | _ => exact .inr ⟨_, .inl rfl, nofun, rfl⟩

theorem memberPath_eq_error {expr found : Expr} {cause : Unsupported}
    (below : expr.unconverted = .ok found) (unnamed : expr.memberPath = .error cause) :
    cause = .notMember found ∧ ∀ path, found = .member path → path.segments = [] := by
  rw [memberPath, below] at unnamed
  cases found with
  | member path =>
    cases empty : path.isEmpty with
    | true =>
      obtain rfl : cause = .notMember (.member path) := by
        have refused := (if_pos empty).symm.trans unnamed
        cases refused
        rfl
      refine ⟨rfl, fun other same => ?_⟩
      cases same
      simpa [Path.isEmpty] using empty
    | false =>
      have accepted := (if_neg (by simp [empty])).symm.trans unnamed
      cases accepted
  | _ =>
    cases unnamed
    refine ⟨rfl, fun path same => ?_⟩
    cases same

/-- The left side of an equality is a field, or the equality is rejected for it. -/
theorem memberPath_cases (ι : Type) [Identifier ι] (idMember : String) (scope : Scope) (left : Expr) :
    (∃ path, left.Selects path ∧ left.memberPath = .ok path) ∨
      ∃ cause, left.memberPath = .error cause ∧
        ∀ right reads, Rejects ι idMember scope (.compare .equal left right) reads cause reads := by
  rcases unconverted_cases left with ⟨inner, rfl, _⟩ | ⟨found, stands, bare, below⟩
  · exact .inr ⟨_, rfl, fun _ _ => .nestedMember⟩
  · cases named : left.memberPath with
    | ok path => exact .inl ⟨path, memberPath_eq_ok_iff.mp named, rfl⟩
    | error cause =>
      obtain ⟨rfl, pathless⟩ := memberPath_eq_error below named
      exact .inr ⟨_, rfl, fun _ _ => .member stands bare pathless⟩

/-- Beside a field, what is no constant is rejected. -/
theorem rejects_constant {path : Path} (selects : left.Selects path)
    (failed : (right.constant scope).run reads = (.error cause, rest)) :
    Rejects ι idMember scope (.compare .equal left right) reads cause rest := by
  unfold constant at failed
  rcases unconverted_cases right with ⟨inner, rfl, below⟩ | ⟨found, stands, bare, below⟩
  · rw [below] at failed
    cases failed
    exact .nestedConstant selects
  · rw [below] at failed
    cases found with
    | literal value => cases failed
    | captured slot =>
      change readCaptured scope slot reads = _ at failed
      unfold readCaptured at failed
      split at failed
      case h_1 => cases failed
      case h_2 reason unread =>
        cases failed
        exact .unreadable selects stands unread
    | _ =>
      cases failed
      exact .constant selects stands bare nofun nofun

/-- An equality reads its right side only where there is a field on its left. -/
theorem ends_equality (idMember : String) (scope : Scope) (left right : Expr) (reads : List Nat) :
    Ends idMember scope [.compare .equal left right] reads
      ((compile idMember scope (.compare .equal left right) : Compilation (Operation ι)).run reads) := by
  rw [compile]
  rcases memberPath_cases ι idMember scope left with ⟨path, selects, named⟩ | ⟨cause, unnamed, rejects⟩
  · rw [named]
    change Ends _ _ _ _ ((right.constant scope >>= _ : Compilation _).run reads)
    rw [bind_run]
    rcases ended : (right.constant scope).run reads with ⟨cause | value, rest⟩
    · exact ends_rejected (rejects_constant selects ended)
    · exact ends_lookup selects (constant_eq_ok_iff.mp ended)
  · rw [unnamed]
    exact ends_rejected (rejects right reads)

/-- A compilation visits the operands of the expression from left to right, up to the first one that is
rejected. -/
theorem ends_compile (idMember : String) (scope : Scope) (expr : Expr) (reads : List Nat) :
    Ends idMember scope expr.operands reads
      ((expr.compile idMember scope : Compilation (Operation ι)).run reads) := by
  have other {expr : Expr} (unanswerable : expr.Unanswerable) (reads : List Nat) :
      Ends idMember scope [expr] reads
        ((.error (.notAnswerable expr) : Except Unsupported (Operation ι)), reads) :=
    ends_rejected (.unanswerable unanswerable)
  induction expr generalizing reads with
  | both left right ihLeft ihRight => exact ends_pair (fun _ _ => rfl) (ihLeft reads) ihRight
  | either left right ihLeft ihRight => exact ends_pair (fun _ _ => rfl) (ihLeft reads) ihRight
  | compare comparison left right =>
    cases comparison with
    | equal => exact ends_equality idMember scope left right reads
    | _ => exact other (by exact ⟨rfl, nofun⟩) reads
  | _ => exact other (by exact ⟨rfl, nofun⟩) reads

end

section

variable {scope other : Scope} {left right operand : Expr} {reads middle rest : List Nat}

theorem reading?_of_selects {path : Path} (selects : left.Selects path) (right : Expr) :
    reading? (.compare .equal left right) = right.capture? := by
  obtain ⟨segments⟩ := path
  obtain ⟨stands, nonempty⟩ := selects
  obtain ⟨first, later, rfl⟩ := List.exists_cons_of_ne_nil nonempty
  obtain rfl | rfl := stands <;> rfl

theorem reading?_of_pathless {found : Expr} (stands : left.StandsFor found)
    (bare : ∀ inner, found ≠ .convert inner)
    (pathless : ∀ path, found = .member path → path.segments = []) (right : Expr) :
    reading? (.compare .equal left right) = none := by
  cases found with
  | convert inner => exact absurd rfl (bare inner)
  | member path =>
    obtain ⟨segments⟩ := path
    obtain rfl : segments = [] := pathless _ rfl
    obtain rfl | rfl := stands <;> rfl
  | _ => obtain rfl | rfl := stands <;> rfl

theorem capture?_sublist (expr : Expr) : expr.capture?.toList.Sublist expr.captures := by
  cases expr with
  | captured slot => exact .refl _
  | convert inner =>
    cases inner with
    | captured slot => exact .refl _
    | _ => exact List.nil_sublist _
  | _ => exact List.nil_sublist _

/-- Only what stands in an operand is read for it. -/
theorem reading?_sublist (operand : Expr) : operand.reading?.toList.Sublist operand.captures := by
  unfold reading?
  split
  case h_1 left right =>
    split
    case h_1 => exact (capture?_sublist right).trans (List.sublist_append_right ..)
    case h_2 => exact List.nil_sublist _
  case h_2 => exact List.nil_sublist _

theorem reading?_of_unanswerable (unanswerable : operand.Unanswerable) : operand.reading? = none := by
  unfold reading?
  split
  case h_1 left right => exact absurd rfl (unanswerable.2 left right)
  case h_2 => rfl

theorem captures_operands (expr : Expr) : expr.operands.flatMap captures = expr.captures := by
  induction expr with
  | both left right ihLeft ihRight => rw [operands, List.flatMap_append, ihLeft, ihRight, captures]
  | either left right ihLeft ihRight => rw [operands, List.flatMap_append, ihLeft, ihRight, captures]
  | _ => simp [operands]

theorem captures_of_selects {path : Path} (selects : left.Selects path) : left.captures = [] := by
  obtain ⟨rfl | rfl, _⟩ := selects <;> rfl

theorem reads_of_supplies {value : Json} (supplied : right.Supplies scope reads value rest) :
    rest = right.capture?.toList ++ reads ∧ right.capture?.toList = right.captures := by
  cases supplied with
  | literal stands => obtain rfl | rfl := stands <;> exact ⟨rfl, rfl⟩
  | captured stands _ => obtain rfl | rfl := stands <;> exact ⟨rfl, rfl⟩

variable [Identifier ι] {idMember : String} {operands : List Expr} {leaves : List (Lookup ι)}

omit [Identifier ι] in
/-- The constant of an equality is all that the equality captures. -/
theorem reads_of_equality {path : Path} {value : Json} (selects : left.Selects path)
    (supplied : right.Supplies scope reads value middle)
    (later : rest = (operands.flatMap captures).reverse ++ middle) :
    rest = ((compare .equal left right :: operands).flatMap captures).reverse ++ reads := by
  obtain ⟨read, whole⟩ := reads_of_supplies supplied
  rw [later, read, List.flatMap_cons, captures, captures_of_selects selects, ← whole,
    List.reverse_append, List.append_assoc]
  congr 1
  cases right.capture? <;> rfl

/-- Each captured value of the operands that are accepted has been read once, in their order. -/
theorem reads_of_accepts (accepts : Accepts idMember scope operands reads leaves rest) :
    rest = (operands.flatMap captures).reverse ++ reads := by
  induction accepts with
  | none => rfl
  | identifier selects supplied _ _ ih => exact reads_of_equality selects supplied ih
  | field selects _ supplied _ ih => exact reads_of_equality selects supplied ih

/-- For an operand that is rejected at most one captured value has been read. -/
theorem reads_of_rejects {cause : Unsupported}
    (rejects : Rejects ι idMember scope operand reads cause rest) :
    rest = operand.reading?.toList ++ reads := by
  cases rejects with
  | unanswerable unanswerable =>
    rw [reading?_of_unanswerable unanswerable]
    rfl
  | nestedMember => rfl
  | member stands bare pathless =>
    rw [reading?_of_pathless stands bare pathless]
    rfl
  | nestedConstant selects =>
    rw [reading?_of_selects selects]
    rfl
  | @constant _ right found _ _ selects stands bare _ uncaptured =>
    rw [reading?_of_selects selects]
    cases found with
    | captured slot => exact absurd rfl (uncaptured slot)
    | convert inner => exact absurd rfl (bare inner)
    | _ => obtain rfl | rfl := stands <;> rfl
  | unreadable selects stands _ =>
    rw [reading?_of_selects selects]
    obtain rfl | rfl := stands <;> rfl
  | identifier selects supplied _ =>
    rw [reading?_of_selects selects]
    exact (reads_of_supplies supplied).1

/-- All of an expression that is accepted has been read. -/
theorem reads_of_accepted {expr : Expr}
    (accepts : Accepts idMember scope expr.operands reads leaves rest) :
    rest = expr.captures.reverse ++ reads := by
  rw [reads_of_accepts accepts, captures_operands]

/-- Of an expression that is rejected has been read what stands in its operands up to the one at which it
is rejected. -/
theorem reads_of_rejected {expr stop : Expr} {before later : List Expr} {cause : Unsupported}
    (split : expr.operands = before ++ stop :: later)
    (accepts : Accepts idMember scope before reads leaves middle)
    (rejects : Rejects ι idMember scope stop middle cause rest) :
    (before.flatMap captures ++ stop.reading?.toList).Sublist expr.captures ∧
      rest = (before.flatMap captures ++ stop.reading?.toList).reverse ++ reads := by
  constructor
  · rw [← captures_operands, split, List.flatMap_append, List.flatMap_cons]
    exact (List.Sublist.refl _).append ((reading?_sublist stop).trans (List.sublist_append_left ..))
  · rw [reads_of_rejects rejects, reads_of_accepts accepts, List.reverse_append, List.append_assoc]
    cases stop.reading? <;> rfl

/-- Two scopes give the same at each reading between the reads made before and the reads made after. -/
def ReadAlike (scope other : Scope) (reads rest : List Nat) : Prop :=
  ∀ earlier slot, reads <:+ earlier → slot :: earlier <:+ rest →
    other.read earlier slot = scope.read earlier slot

theorem constant_congr {outcome : Except Unsupported Json}
    (ended : (right.constant scope).run reads = (outcome, rest))
    (alike : ReadAlike scope other reads rest) : (right.constant other).run reads = (outcome, rest) := by
  rw [← ended]
  unfold constant at ended ⊢
  cases stands : right.unconverted with
  | error cause => rfl
  | ok found =>
    cases found with
    | captured slot =>
      rw [stands] at ended
      change readCaptured scope slot reads = _ at ended
      change readCaptured other slot reads = readCaptured scope slot reads
      have read : rest = slot :: reads := by
        unfold readCaptured at ended
        split at ended <;> cases ended <;> rfl
      subst read
      rw [readCaptured, readCaptured, alike reads slot List.suffix_rfl List.suffix_rfl]
    | _ => rfl

theorem suffix_run (expr : Expr) (idMember : String) (scope : Scope) (reads : List Nat) :
    reads <:+ ((expr.compile idMember scope : Compilation (Operation ι)).run reads).2 := by
  have ends : Ends idMember scope expr.operands reads
      ((expr.compile idMember scope : Compilation (Operation ι)).run reads) :=
    ends_compile idMember scope expr reads
  rcases ended : (expr.compile idMember scope : Compilation (Operation ι)).run reads with ⟨_, rest⟩
  rw [ended] at ends
  cases ends with
  | accepted accepts => exact ⟨_, (reads_of_accepted accepts).symm⟩
  | rejected split accepts rejects => exact ⟨_, (reads_of_rejected split accepts rejects).2.symm⟩

omit [Identifier ι] in
theorem pair_congr {former latter former' latter' : Compilation (Operation ι)}
    {combine : Operation ι → Operation ι → Operation ι} {outcome : Except Unsupported (Operation ι)}
    (starts : reads <:+ (former.run reads).2) (grows : ∀ middle, middle <:+ (latter.run middle).2)
    (first : ∀ {outcome middle}, former.run reads = (outcome, middle) →
      ReadAlike scope other reads middle → former'.run reads = (outcome, middle))
    (second : ∀ {start outcome last}, latter.run start = (outcome, last) →
      ReadAlike scope other start last → latter'.run start = (outcome, last))
    (ended : (do
        let left ← former
        let right ← latter
        pure (combine left right) : Compilation (Operation ι)).run reads = (outcome, rest))
    (alike : ReadAlike scope other reads rest) :
    (do
        let left ← former'
        let right ← latter'
        pure (combine left right) : Compilation (Operation ι)).run reads = (outcome, rest) := by
  rw [bind_run] at ended ⊢
  rcases formerly : former.run reads with ⟨cause | left, middle⟩
  · rw [formerly] at ended
    cases ended
    rw [first formerly alike]
  · rw [formerly] at ended starts
    dsimp only at ended
    rw [bind_run] at ended
    rcases latterly : latter.run middle with ⟨result, last⟩
    have grown := grows middle
    have same : rest = last := by
      rw [latterly] at ended
      cases result <;> cases ended <;> rfl
    subst same
    rw [latterly] at grown
    rw [first formerly fun earlier slot later before => alike earlier slot later (before.trans grown)]
    dsimp only
    rw [bind_run, second latterly fun earlier slot later before =>
      alike earlier slot (starts.trans later) before, ← latterly]
    exact ended

/-- Nothing but what is read has an influence on a compilation. -/
theorem compile_congr {expr : Expr} {outcome : Except Unsupported (Operation ι)}
    (ended : (expr.compile idMember scope).run reads = (outcome, rest))
    (alike : ReadAlike scope other reads rest) :
    (expr.compile idMember other).run reads = (outcome, rest) := by
  induction expr generalizing reads rest outcome with
  | both left right ihLeft ihRight =>
    exact pair_congr (suffix_run left idMember scope reads) (suffix_run right idMember scope)
      ihLeft ihRight ended alike
  | either left right ihLeft ihRight =>
    exact pair_congr (suffix_run left idMember scope reads) (suffix_run right idMember scope)
      ihLeft ihRight ended alike
  | compare comparison left right =>
    cases comparison with
    | equal =>
      rw [compile] at ended ⊢
      cases named : left.memberPath with
      | error cause =>
        rw [named] at ended
        exact ended
      | ok path =>
        rw [named] at ended
        change (right.constant scope >>= _ : Compilation _).run reads = _ at ended
        change (right.constant other >>= _ : Compilation _).run reads = _
        rw [bind_run] at ended ⊢
        rcases known : (right.constant scope).run reads with ⟨cause | value, middle⟩
        all_goals
          rw [known] at ended
          cases ended
          rw [constant_congr known alike]
        rfl
    | _ => exact ended
  | _ => exact ended

end

/-- The expression with other captured values in the places of its own. -/
def rename (slots : Nat → Nat) : Expr → Expr
  | .member path => .member path
  | .literal value => .literal value
  | .captured slot => .captured (slots slot)
  | .convert inner => .convert (inner.rename slots)
  | .compare comparison left right => .compare comparison (left.rename slots) (right.rename slots)
  | .both left right => .both (left.rename slots) (right.rename slots)
  | .either left right => .either (left.rename slots) (right.rename slots)
  | .negation inner => .negation (inner.rename slots)

/-- The text of an expression does not tell which values are captured in it. -/
theorem display_rename (slots : Nat → Nat) (expr : Expr) : (expr.rename slots).display = expr.display := by
  induction expr with
  | member | literal | captured => rfl
  | convert inner ih => rw [rename, display, display, ih]
  | compare comparison left right ihLeft ihRight => rw [rename, display, display, ihLeft, ihRight]
  | both left right ihLeft ihRight => rw [rename, display, display, ihLeft, ihRight]
  | either left right ihLeft ihRight => rw [rename, display, display, ihLeft, ihRight]
  | negation inner ih => rw [rename, display, display, ih]

end Expr

def Unsupported.rename (slots : Nat → Nat) : Unsupported → Unsupported
  | .notAnswerable expr => .notAnswerable (expr.rename slots)
  | .notMember found => .notMember (found.rename slots)
  | .notConstant found => .notConstant (found.rename slots)
  | cause => cause

theorem Unsupported.message_rename (slots : Nat → Nat) (cause : Unsupported) :
    (cause.rename slots).message = cause.message := by
  cases cause with
  | notAnswerable expr =>
    unfold rename message
    exact congrArg (_ ++ · ++ _) (Expr.display_rename slots expr)
  | notMember found =>
    unfold rename message
    exact congrArg (_ ++ · ++ _) (Expr.display_rename slots found)
  | notConstant found =>
    unfold rename message
    exact congrArg (_ ++ · ++ _) (Expr.display_rename slots found)
  | _ => rfl

namespace Expr

variable [Identifier ι]

/-- A compilation reads captured values of the expression from left to right, each in its place and at
most once. If it succeeds it has read all of them, each for the lookup in its place. If it fails, all
operands before some operand were accepted and what they capture was read, and that operand was rejected;
what it reads itself is the constant beside a field. Nothing that was not read has an influence on the
outcome, and no text of the expression or of an error tells which values are captured. -/
theorem compile_reads (idMember : String) (scope : Scope) (expr : Expr) (reads : List Nat) :
    ∃ (outcome : Except Unsupported (Operation ι)) (rest evaluated : List Nat),
      (expr.compile idMember scope).run reads = (outcome, rest) ∧
      rest = evaluated.reverse ++ reads ∧ evaluated.Sublist expr.captures ∧
      (∀ operation, outcome = .ok operation → evaluated = expr.captures ∧
        Accepts idMember scope expr.operands reads operation.lookups rest) ∧
      (∀ cause, outcome = .error cause →
        ∃ (before later : List Expr) (stop : Expr) (leaves : List (Lookup ι)) (middle : List Nat),
          expr.operands = before ++ stop :: later ∧
          evaluated = before.flatMap captures ++ stop.reading?.toList ∧
          Accepts idMember scope before reads leaves middle ∧
          Rejects ι idMember scope stop middle cause rest) ∧
      (∀ other, ReadAlike scope other reads rest →
        (expr.compile idMember other).run reads = (outcome, rest)) ∧
      ∀ slots, (expr.rename slots).display = expr.display ∧
        ∀ cause, outcome = .error cause → (cause.rename slots).message = cause.message := by
  have ends : Ends idMember scope expr.operands reads
      ((expr.compile idMember scope : Compilation (Operation ι)).run reads) :=
    ends_compile idMember scope expr reads
  rcases ended : (expr.compile idMember scope : Compilation (Operation ι)).run reads with ⟨outcome, rest⟩
  rw [ended] at ends
  have alike (other : Scope) (alike : ReadAlike scope other reads rest) :
      (expr.compile idMember other).run reads = (outcome, rest) := compile_congr ended alike
  have texts (slots : Nat → Nat) : (expr.rename slots).display = expr.display ∧
      ∀ cause, outcome = .error cause → (cause.rename slots).message = cause.message :=
    ⟨display_rename slots expr, fun cause _ => cause.message_rename slots⟩
  cases ends with
  | accepted accepts =>
    refine ⟨_, rest, expr.captures, rfl, reads_of_accepted accepts, .refl _, ?_, nofun, alike, texts⟩
    intro _ same
    cases same
    exact ⟨rfl, accepts⟩
  | rejected split accepts rejects =>
    obtain ⟨inside, read⟩ := reads_of_rejected split accepts rejects
    refine ⟨_, rest, _, rfl, read, inside, nofun, ?_, alike, texts⟩
    intro _ same
    cases same
    exact ⟨_, _, _, _, _, split, rfl, accepts, rejects⟩

end Expr

end DocStore
