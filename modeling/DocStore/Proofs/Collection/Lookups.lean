import DocStore.Collection.Search
import DocStore.Proofs.Collection.Conduct
import DocStore.Proofs.Query.Reading

/-! The lookups of a plan, call by call. Each reads in a transaction of its own; several can be under way
at once and get their replies in any order, and each can be given up while it waits for one. `Phase` says
how far a lookup has come, `Phase.Advances` what can happen to it next, and `Course` how some lookups
advance beside each other. -/
namespace DocStore

variable {τ α ι : Type}

/-- Something that happens at the stores. A call that was given up while its reply was due stands with a
reply that nobody has seen. -/
inductive Act (τ α ι : Type) where
  | done (deed : Deed τ α ι)
  | cut (deed : Deed τ α ι)

def Act.deed : Act τ α ι → Deed τ α ι
  | .done deed => deed
  | .cut deed => deed

def Deed.reads : Deed τ α ι → Bool
  | .begunRead .records _ | .committed .. | .released _ => true
  | .asked _ (.find _) _ | .askedIndex _ _ (.find _) _ => true
  | _ => false

/-- How far a lookup has come. -/
inductive Phase (τ α ι : Type) where
  | fresh (lookup : Lookup ι)
  | begin (lookup : Lookup ι)
  /-- It waits for an entry of an index. -/
  | list (tx : τ) (name : IndexName) (value : IndexValue)
  /-- It waits for the record of the next id, or for the end of its transaction if there is no other id. -/
  | fetch (tx : τ) (ids : List ι) (found : List α)
  | over (outcome : Except QueryError (List α))
  /-- It was given up. -/
  | left

/-- Nothing more is to come. -/
inductive Phase.Settled : Phase τ α ι → Prop
  | fresh (lookup : Lookup ι) : Settled (.fresh lookup)
  | over (outcome : Except QueryError (List α)) : Settled (.over outcome)
  | left : Settled .left

/-- How some lookups have ended that fail with an error, or with none: the error is that of a lookup that
is over, and without one all of them are over and have found their records. -/
def Phase.EndedWith (final : List (Phase τ α ι)) : Option QueryError → Prop
  | some error => .over (.error error) ∈ final
  | none => ∀ last ∈ final, ∃ found, last = .over (.ok found)

theorem Phase.EndedWith.settled {final : List (Phase τ α ι)} (ended : EndedWith final none) :
    ∀ last ∈ final, last.Settled := by
  intro last member
  obtain ⟨found, rfl⟩ := ended last member
  exact .over _

namespace Lookup

/-- There is the index the lookup needs, if it needs one. -/
def Declared (names : List IndexName) : Lookup ι → Prop
  | .byId _ => True
  | .byField name _ => name ∈ names

def reading (tx : τ) : Lookup ι → Phase τ α ι
  | .byId id => .fetch tx [id] []
  | .byField name value => .list tx name value

end Lookup

namespace Phase

/-- What can happen to a lookup next. A transaction is released by whoever holds it: the lookup until it
calls for the commit, which takes the transaction. -/
inductive Advances (names : List IndexName) : Phase τ α ι → List (Act τ α ι) → Phase τ α ι → Prop
  | refused {name value} (undeclared : name ∉ names) :
      Advances names (.fresh (.byField name value)) [] (.over (.error (.unknownIndex name)))
  | started {lookup} (declared : lookup.Declared names) :
      Advances names (.fresh lookup) [] (.begin lookup)
  | unbegun {lookup error} : Advances names (.begin lookup)
      [.done (.begunRead .records (.error error))] (.over (.error (.store error)))
  | begun {lookup tx} : Advances names (.begin lookup)
      [.done (.begunRead .records (.ok tx))] (lookup.reading tx)
  | unlisted {tx name value error} : Advances names (.list tx name value)
      [.done (.askedIndex name tx (.find value) (.error error)), .done (.released tx)]
      (.over (.error (.store error)))
  | listed {tx name value entry} : Advances names (.list tx name value)
      [.done (.askedIndex name tx (.find value) (.ok (.found entry)))]
      (.fetch tx (entry.getD .empty).ids [])
  | unfetched {tx id rest found error} : Advances names (.fetch tx (id :: rest) found)
      [.done (.asked tx (.find id) (.error error)), .done (.released tx)] (.over (.error (.store error)))
  | fetched {tx id rest found held} : Advances names (.fetch tx (id :: rest) found)
      [.done (.asked tx (.find id) (.ok (.found held)))] (.fetch tx rest (found ++ held.toList))
  | uncommitted {tx found error} : Advances names (.fetch tx [] found)
      [.done (.committed tx (.error error))] (.over (.error (.store error)))
  | committed {tx found} : Advances names (.fetch tx [] found)
      [.done (.committed tx (.ok ()))] (.over (.ok found))
  | leftBegin {lookup unseen} : Advances names (.begin lookup) [.cut (.begunRead .records unseen)] .left
  | leftList {tx name value unseen} : Advances names (.list tx name value)
      [.cut (.askedIndex name tx (.find value) unseen), .done (.released tx)] .left
  | leftFetch {tx id rest found unseen} : Advances names (.fetch tx (id :: rest) found)
      [.cut (.asked tx (.find id) unseen), .done (.released tx)] .left
  | leftCommit {tx found unseen} : Advances names (.fetch tx [] found)
      [.cut (.committed tx unseen)] .left

/-- What happens to a lookup from one phase to a later one. -/
inductive Passage (names : List IndexName) : Phase τ α ι → List (Act τ α ι) → Phase τ α ι → Prop
  | stay {phase} : Passage names phase [] phase
  | step {phase next last acts more} (advances : Advances names phase acts next)
      (later : Passage names next more last) : Passage names phase (acts ++ more) last

variable {names : List IndexName} {phase next last : Phase τ α ι} {acts more : List (Act τ α ι)}

theorem Advances.reads (advances : Advances names phase acts next) :
    ∀ act ∈ acts, act.deed.reads = true := by
  cases advances <;> simp [Act.deed, Deed.reads]

theorem Passage.single (advances : Advances names phase acts next) : Passage names phase acts next := by
  have passage : Passage names phase (acts ++ []) next := .step advances .stay
  rwa [List.append_nil] at passage

theorem Passage.append (former : Passage names phase acts next) (latter : Passage names next more last) :
    Passage names phase (acts ++ more) last := by
  induction former with
  | stay => exact latter
  | step advances _ ih =>
    rw [List.append_assoc]
    exact .step advances (ih latter)

theorem Passage.of_ended (passage : Passage names phase acts last)
    (ended : ∀ acts next, ¬ Advances names phase acts next) : acts = [] ∧ last = phase := by
  cases passage with
  | stay => exact ⟨rfl, rfl⟩
  | step advances _ => exact absurd advances (ended _ _)

theorem Advances.reached (advances : Advances names phase acts next) (lookup : Lookup ι) :
    next ≠ .fresh lookup := by
  cases advances with
  | @begun began tx => cases began <;> nofun
  | _ => nofun

theorem Passage.reached (passage : Passage names phase acts last)
    (reached : ∀ lookup, phase ≠ .fresh lookup) (lookup : Lookup ι) : last ≠ .fresh lookup := by
  induction passage with
  | stay => exact reached lookup
  | step advances _ ih => exact ih advances.reached

theorem Passage.of_over {outcome : Except QueryError (List α)}
    (passage : Passage names (.over outcome) acts last) : acts = [] := (passage.of_ended nofun).1

theorem Passage.of_left (passage : Passage names .left acts last) : acts = [] := (passage.of_ended nofun).1

end Phase

namespace Lookup

/-- The records of all these ids were looked up in turn. -/
def Finished (tx : τ) (ids : List ι) (acts : List (Act τ α ι)) : Prop :=
  List.Forall₂ (fun id act => ∃ held, act = .done (.asked tx (.find id) (.ok (.found held)))) ids acts

/-- The records of some ids were looked up in turn, up to a call that failed or was given up. -/
inductive Stopped (tx : τ) : List ι → List (Act τ α ι) → Prop
  | failed {id rest error} : Stopped tx (id :: rest) [.done (.asked tx (.find id) (.error error))]
  | cut {id rest unseen} : Stopped tx (id :: rest) [.cut (.asked tx (.find id) unseen)]
  | later {id rest held acts} (stopped : Stopped tx rest acts) :
      Stopped tx (id :: rest) (.done (.asked tx (.find id) (.ok (.found held))) :: acts)

/-- All reads of a lookup were made, and all succeeded. -/
inductive ReadWhole (tx : τ) : Lookup ι → List (Act τ α ι) → Prop
  | byId {id acts} (finished : Finished tx [id] acts) : ReadWhole tx (.byId id) acts
  | byField {name value entry acts} (finished : Finished tx (entry.getD .empty).ids acts) :
      ReadWhole tx (.byField name value)
        (.done (.askedIndex name tx (.find value) (.ok (.found entry))) :: acts)

/-- The reads of a lookup were made up to one that failed or was given up. -/
inductive ReadPart (tx : τ) : Lookup ι → List (Act τ α ι) → Prop
  | byId {id acts} (stopped : Stopped tx [id] acts) : ReadPart tx (.byId id) acts
  | unlisted {name value error} :
      ReadPart tx (.byField name value) [.done (.askedIndex name tx (.find value) (.error error))]
  | cut {name value unseen} :
      ReadPart tx (.byField name value) [.cut (.askedIndex name tx (.find value) unseen)]
  | byField {name value entry acts} (stopped : Stopped tx (entry.getD .empty).ids acts) :
      ReadPart tx (.byField name value)
        (.done (.askedIndex name tx (.find value) (.ok (.found entry))) :: acts)

/-- What is done for a lookup: one read transaction is begun on the primary store, all reads are made in
it, and it is committed if they all succeeded and released otherwise. -/
inductive Conducted (lookup : Lookup ι) : List (Act τ α ι) → Prop
  | unbegun {error} : Conducted lookup [.done (.begunRead .records (.error error))]
  | leftBegin {unseen} : Conducted lookup [.cut (.begunRead .records unseen)]
  | committed {tx reads outcome} (whole : ReadWhole tx lookup reads) :
      Conducted lookup
        (.done (.begunRead .records (.ok tx)) :: (reads ++ [.done (.committed tx outcome)]))
  | leftCommit {tx reads unseen} (whole : ReadWhole tx lookup reads) :
      Conducted lookup
        (.done (.begunRead .records (.ok tx)) :: (reads ++ [.cut (.committed tx unseen)]))
  | released {tx reads} (part : ReadPart tx lookup reads) :
      Conducted lookup (.done (.begunRead .records (.ok tx)) :: (reads ++ [.done (.released tx)]))

/-- What is done for a lookup between its beginning and its last phase is as it should be. Nothing is done
for a lookup that is not reached or has no index. -/
structure Orderly (names : List IndexName) (lookup : Lookup ι) (acts : List (Act τ α ι))
    (last : Phase τ α ι) : Prop where
  unreached : last = .fresh lookup → acts = []
  undeclared : ¬ lookup.Declared names → acts = []
  conducted : lookup.Declared names → last ≠ .fresh lookup → lookup.Conducted acts

variable {names : List IndexName} {acts : List (Act τ α ι)} {last : Phase τ α ι} {lookup : Lookup ι}
  {tx : τ}

open Phase (Passage)

/-- The records are looked up until one lookup fails or is given up, and the transaction is ended. -/
theorem conducted_fetch {ids : List ι} {found : List α}
    (passage : Passage names (.fetch tx ids found) acts last) (settled : last.Settled) :
    (∃ reads final, acts = reads ++ [final] ∧ Finished tx ids reads ∧
        ((∃ outcome, final = .done (.committed tx outcome)) ∨
          ∃ unseen, final = .cut (.committed tx unseen))) ∨
      ∃ reads, acts = reads ++ [.done (.released tx)] ∧ Stopped tx ids reads := by
  induction ids generalizing found acts with
  | nil =>
    cases passage with
    | stay => cases settled
    | step advances later =>
      cases advances with
      | uncommitted =>
        rw [later.of_over]
        exact .inl ⟨[], _, rfl, .nil, .inl ⟨_, rfl⟩⟩
      | committed =>
        rw [later.of_over]
        exact .inl ⟨[], _, rfl, .nil, .inl ⟨_, rfl⟩⟩
      | leftCommit =>
        rw [later.of_left]
        exact .inl ⟨[], _, rfl, .nil, .inr ⟨_, rfl⟩⟩
  | cons id rest ih =>
    cases passage with
    | stay => cases settled
    | step advances later =>
      cases advances with
      | unfetched =>
        rw [later.of_over]
        exact .inr ⟨[_], rfl, .failed⟩
      | leftFetch =>
        rw [later.of_left]
        exact .inr ⟨[_], rfl, .cut⟩
      | fetched =>
        rcases ih later with ⟨reads, final, rfl, finished, ends⟩ | ⟨reads, rfl, stopped⟩
        · exact .inl ⟨_ :: reads, final, rfl, .cons ⟨_, rfl⟩ finished, ends⟩
        · exact .inr ⟨_ :: reads, rfl, .later stopped⟩

theorem conducted_of_fetch {first : List (Act τ α ι)} {ids : List ι} {found : List α}
    (passage : Passage names (.fetch tx ids found) acts last) (settled : last.Settled)
    (whole : ∀ {reads}, Finished tx ids reads → ReadWhole tx lookup (first ++ reads))
    (part : ∀ {reads}, Stopped tx ids reads → ReadPart tx lookup (first ++ reads)) :
    lookup.Conducted (.done (.begunRead .records (.ok tx)) :: (first ++ acts)) := by
  rcases conducted_fetch passage settled with
    ⟨reads, final, rfl, finished, ⟨outcome, rfl⟩ | ⟨unseen, rfl⟩⟩ | ⟨reads, rfl, stopped⟩
  · rw [← List.append_assoc]
    exact .committed (whole finished)
  · rw [← List.append_assoc]
    exact .leftCommit (whole finished)
  · rw [← List.append_assoc]
    exact .released (part stopped)

theorem released_at_once {act : Act τ α ι} (part : ReadPart tx lookup [act]) :
    lookup.Conducted [.done (.begunRead .records (.ok tx)), act, .done (.released tx)] := .released part

/-- Once there is a transaction, it is used and ended as it should be. -/
theorem conducted_reading (passage : Passage names (lookup.reading tx) acts last) (settled : last.Settled) :
    lookup.Conducted (.done (.begunRead .records (.ok tx)) :: acts) := by
  cases lookup with
  | byId id =>
    rw [← List.nil_append acts]
    exact conducted_of_fetch passage settled .byId .byId
  | byField name value =>
    cases passage with
    | stay => cases settled
    | step advances later =>
      cases advances with
      | unlisted =>
        rw [later.of_over]
        exact released_at_once .unlisted
      | leftList =>
        rw [later.of_left]
        exact released_at_once .cut
      | listed => exact conducted_of_fetch later settled .byField .byField

theorem orderly_of_passage (passage : Passage names (.fresh lookup) acts last) (settled : last.Settled) :
    lookup.Orderly names acts last := by
  cases passage with
  | stay => exact ⟨fun _ => rfl, fun _ => rfl, fun _ reached => absurd rfl reached⟩
  | step advances later =>
    have reached := later.reached advances.reached lookup
    cases advances with
    | refused undeclared =>
      rw [later.of_over]
      exact ⟨fun _ => rfl, fun _ => rfl, fun declared => absurd declared undeclared⟩
    | started declared =>
      refine ⟨fun fresh => absurd fresh reached, absurd declared, fun _ _ => ?_⟩
      cases later with
      | stay => cases settled
      | step advances later =>
        cases advances with
        | unbegun =>
          rw [later.of_over]
          exact .unbegun
        | leftBegin =>
          rw [later.of_left]
          exact .leftBegin
        | begun => exact conducted_reading later settled

end Lookup

/-- How some lookups advance beside each other. What happens is told with the position of its lookup; at
any time any of them may be the next one. -/
inductive Course (names : List IndexName) :
    List (Phase τ α ι) → List (Nat × Act τ α ι) → List (Phase τ α ι) → Prop
  | stay {phases} : Course names phases [] phases
  | step {phases final position phase next acts trace} (here : phases[position]? = some phase)
      (advances : phase.Advances names acts next)
      (later : Course names (phases.set position next) trace final) :
      Course names phases (acts.map (position, ·) ++ trace) final

namespace Course

/-- What happens to the lookup at a position. -/
def own (position : Nat) (trace : List (Nat × Act τ α ι)) : List (Act τ α ι) :=
  (trace.filter fun entry => entry.1 == position).map Prod.snd

theorem own_append (position other : Nat) (acts : List (Act τ α ι)) (trace : List (Nat × Act τ α ι)) :
    own position (acts.map (other, ·) ++ trace) =
      (if other = position then acts else []) ++ own position trace := by
  rw [own, List.filter_append, List.map_append]
  congr 1
  by_cases same : other = position
  · simp [same, List.filter_map, Function.comp_def]
  · simp [same]

variable {names : List IndexName} {phases final : List (Phase τ α ι)} {trace : List (Nat × Act τ α ι)}
  {phase last : Phase τ α ι} {acts : List (Act τ α ι)} {position : Nat}

/-- Whatever happens to the others, a lookup goes its own way. -/
theorem passage (course : Course names phases trace final) (here : phases[position]? = some phase) :
    ∃ last, final[position]? = some last ∧ phase.Passage names (own position trace) last := by
  induction course generalizing phase with
  | stay => exact ⟨phase, here, .stay⟩
  | @step phases final other moving next acts trace there advances later ih =>
    rw [own_append]
    by_cases same : other = position
    · subst same
      obtain rfl : moving = phase := Option.some.inj (there.symm.trans here)
      have within : other < phases.length := (List.getElem?_eq_some_iff.mp here).1
      obtain ⟨last, ended, passage⟩ := ih (List.getElem?_set_self within)
      rw [if_pos rfl]
      exact ⟨last, ended, .step advances passage⟩
    · rw [if_neg same]
      exact ih ((List.getElem?_set_ne same).trans here)

theorem reads (course : Course names phases trace final) :
    ∀ entry ∈ trace, entry.2.deed.reads = true := by
  induction course with
  | stay => simp
  | step _ advances _ ih =>
    intro entry member
    rcases List.mem_append.mp member with now | later
    · obtain ⟨act, inside, rfl⟩ := List.mem_map.mp now
      exact advances.reads act inside
    · exact ih entry later

/-- A lookup may go all its way before anything else happens. -/
theorem of_passage (here : phases[position]? = some phase) (passage : phase.Passage names acts last)
    (later : Course names (phases.set position last) trace final) :
    Course names phases (acts.map (position, ·) ++ trace) final := by
  induction passage generalizing phases with
  | @stay phase =>
    obtain ⟨within, rfl⟩ := List.getElem?_eq_some_iff.mp here
    rw [List.set_getElem_self within] at later
    exact later
  | @step phase next last acts more advances _ ih =>
    have within : position < phases.length := (List.getElem?_eq_some_iff.mp here).1
    rw [List.map_append, List.append_assoc]
    refine .step here advances (ih (List.getElem?_set_self within) ?_)
    rw [List.set_set]
    exact later

/-- However some lookups get their replies, and wherever any of them are given up: all that is done is
reading, and each lookup is conducted as it should be. -/
theorem orderly {lookups : List (Lookup ι)}
    (course : Course names (lookups.map .fresh) trace final) (settled : ∀ last ∈ final, last.Settled) :
    (∀ entry ∈ trace, entry.2.deed.reads = true) ∧
      ∀ position (lookup : Lookup ι), lookups[position]? = some lookup →
        ∃ last, final[position]? = some last ∧ lookup.Orderly names (own position trace) last := by
  refine ⟨course.reads, ?_⟩
  intro position lookup here
  have fresh : (lookups.map Phase.fresh)[position]? = some (.fresh lookup : Phase τ α ι) := by
    rw [List.getElem?_map, here, Option.map_some]
  obtain ⟨last, ended, passage⟩ := course.passage fresh
  exact ⟨last, ended, Lookup.orderly_of_passage passage (settled last (List.mem_of_getElem? ended))⟩

end Course

end DocStore
