import DocStore.Proofs.Collection.Lookups
import DocStore.Proofs.Collection.Memory
import DocStore.Proofs.Collection.Transactional

namespace DocStore

variable {σ τ α ι : Type}

namespace Transactions

variable {ε β : Type} {transactions : Transactions σ τ} {wrap : StoreError → ε} {begin : StoreAction σ τ}
  {body : τ → Action ε σ β} {tx : τ} {error : StoreError} {world opened done next : σ}

theorem within_of_unbegun (unbegun : begin world = (.error error, opened)) :
    transactions.within wrap begin body world = (.error (wrap error), opened) := by
  rw [within, Action.bind_of_error (Action.mapError_of_error unbegun)]

theorem within_of_uncommitted {value : β} (begun : begin world = (.ok tx, opened))
    (success : body tx opened = (.ok value, done))
    (uncommitted : transactions.commit tx done = (.error error, next)) :
    transactions.within wrap begin body world = (.error (wrap error), next) := by
  rw [within, Action.bind_of_ok (Action.mapError_of_ok begun),
    Action.bind_of_ok (Action.attempt_apply success)]
  exact Action.bind_of_error (Action.mapError_of_error uncommitted)

end Transactions

def failure? {ε β : Type} : Except ε β → Option ε
  | .ok _ => none
  | .error error => some error

/-- What is written down of a lookup that goes all its way at once. -/
def Looked (names : List IndexName) (lookup : Lookup ι) (deeds : List (Deed τ α ι))
    (outcome : Except QueryError (List α)) : Prop :=
  Phase.Passage names (.fresh lookup) (deeds.map .done) (.over outcome)

theorem looked_of_begin {names : List IndexName} {lookup : Lookup ι} {deeds : List (Deed τ α ι)}
    {outcome : Except QueryError (List α)} (declared : lookup.Declared names)
    (passage : Phase.Passage names (.begin lookup) (deeds.map .done) (.over outcome)) :
    Looked names lookup deeds outcome := .step (.started declared) passage

/-- What is written down of some lookups in turn, each in a list of its own: after one that fails there
is no other. -/
inductive InTurn (names : List IndexName) :
    List (Lookup ι) → List (List (Deed τ α ι)) → Option QueryError → Prop
  | done : InTurn names [] [] none
  | failed {lookup rest deeds error} (looked : Looked names lookup deeds (.error error)) :
      InTurn names (lookup :: rest) [deeds] (some error)
  | next {lookup rest deeds found parts error?} (looked : Looked names lookup deeds (.ok found))
      (later : InTurn names rest parts error?) :
      InTurn names (lookup :: rest) (deeds :: parts) error?

/-- What is written down of some lookups in turn, all of it in one list, which end as the last of them. -/
def Consecutive (names : List IndexName) (lookups : List (Lookup ι)) (deeds : List (Deed τ α ι))
    (outcome : Except QueryError (List α)) : Prop :=
  ∃ parts, deeds = parts.flatten ∧ InTurn names lookups parts (failure? outcome)

/-- A lookup that is made of a get asks for nothing but that get. -/
theorem Watched.logs_findByGet {δ κ ν : Type} (notes : Watched.Notes δ τ κ ν) (store : LeafStore σ τ κ ν)
    (tx : τ) (key : κ) :
    Watched.Logs ((Watched.store notes store).withPlainLookups.find tx key)
      (store.withPlainLookups.find tx key) fun deeds _ =>
        ∃ outcome, deeds = [notes.asked tx (.get key) outcome] := by
  intro past world
  rcases ended : store.get tx key world with ⟨outcome, next⟩
  have noted : (Watched.store notes store).get tx key ⟨past, world⟩ =
      (outcome, ⟨past ++ [notes.asked tx (.get key) (outcome.map .value)], next⟩) :=
    Watched.act_apply (fun outcome => notes.asked tx (.get key) (outcome.map .value)) ended past
  refine ⟨[notes.asked tx (.get key) (outcome.map .value)], ?_, _, rfl⟩
  change (Watched.store notes store).findByGet tx key ⟨past, world⟩ =
    ((store.findByGet tx key world).1, ⟨past ++ _, (store.findByGet tx key world).2⟩)
  rw [LeafStore.findByGet, LeafStore.findByGet, Action.bind_of_ok (Action.attempt_apply noted),
    Action.bind_of_ok (Action.attempt_apply ended)]
  split <;> rfl

namespace InTurn

variable {names : List IndexName} {lookups others : List (Lookup ι)}
  {parts more : List (List (Deed τ α ι))} {error? : Option QueryError} {error : QueryError}

theorem single {lookup : Lookup ι} {deeds : List (Deed τ α ι)} {outcome : Except QueryError (List α)}
    (looked : Looked names lookup deeds outcome) : Consecutive names [lookup] deeds outcome := by
  refine ⟨[deeds], by simp, ?_⟩
  cases outcome with
  | ok found => exact .next looked .done
  | error cause => exact .failed looked

theorem append (former : InTurn names lookups parts none) (latter : InTurn names others more error?) :
    InTurn names (lookups ++ others) (parts ++ more) error? := by
  generalize ended : none = past? at former
  induction former with
  | done => exact latter
  | failed => cases ended
  | next looked _ ih => exact .next looked (ih ended)

theorem stop (inTurn : InTurn names lookups parts (some error)) (others : List (Lookup ι)) :
    InTurn names (lookups ++ others) parts (some error) := by
  generalize ended : some error = error? at inTurn
  induction inTurn with
  | done => cases ended
  | failed looked => exact .failed looked
  | next looked _ ih => exact .next looked (ih ended)

/-- Lookups in turn are one of the courses that they can take, and they end there as they end in turn. -/
theorem course (inTurn : InTurn names lookups parts error?) (ended : List (Phase τ α ι))
    (succeeded : Phase.EndedWith ended none) :
    ∃ trace final, Course names (ended ++ lookups.map .fresh) trace final ∧
      (∀ last ∈ final, last.Settled) ∧ Phase.EndedWith final error? ∧
      trace.map Prod.snd = parts.flatten.map .done := by
  have here (lookup : Lookup ι) (rest : List (Lookup ι)) (ended : List (Phase τ α ι)) :
      (ended ++ (lookup :: rest).map Phase.fresh)[ended.length]? = some (.fresh lookup) := by simp
  have own (position : Nat) (deeds : List (Deed τ α ι)) (trace : List (Nat × Act τ α ι)) :
      (((deeds.map Act.done).map (position, ·)) ++ trace).map Prod.snd =
        deeds.map Act.done ++ trace.map Prod.snd := by
    simp [Function.comp_def]
  induction inTurn generalizing ended with
  | done =>
    rw [List.map_nil, List.append_nil]
    exact ⟨[], ended, .stay, succeeded.settled, succeeded, rfl⟩
  | @failed lookup rest deeds error looked =>
    refine ⟨_, _, .of_passage (here lookup rest ended) looked .stay, ?_, ?_, ?_⟩
    · intro last member
      rcases List.mem_or_eq_of_mem_set member with before | rfl
      · rcases List.mem_append.mp before with past | waiting
        · exact succeeded.settled last past
        · obtain ⟨lookup, _, rfl⟩ := List.mem_map.mp waiting
          exact .fresh lookup
      · exact .over _
    · exact List.mem_set (List.getElem?_eq_some_iff.mp (here lookup rest ended)).1 _
    · rw [own]
      simp
  | @next lookup rest deeds found parts error? looked _ ih =>
    have succeededToo : Phase.EndedWith (ended ++ [.over (.ok found)]) none := by
      intro phase member
      rcases List.mem_append.mp member with past | now
      · exact succeeded phase past
      · exact ⟨found, List.mem_singleton.mp now⟩
    obtain ⟨trace, final, course, all, ends, same⟩ := ih _ succeededToo
    have set : (ended ++ (lookup :: rest).map Phase.fresh).set ended.length (.over (.ok found)) =
        ended ++ [.over (.ok found)] ++ rest.map Phase.fresh := by simp
    rw [← set] at course
    refine ⟨_, final, .of_passage (here lookup rest ended) looked course, all, ends, ?_⟩
    rw [own, same, List.flatten_cons, List.map_append]

end InTurn

theorem Course.reads_of_deeds {names : List IndexName} {phases final : List (Phase τ α ι)}
    {trace : List (Nat × Act τ α ι)} {deeds : List (Deed τ α ι)} (course : Course names phases trace final)
    (same : trace.map Prod.snd = deeds.map .done) : ∀ deed ∈ deeds, deed.reads = true := by
  intro deed member
  have inside : Act.done deed ∈ trace.map Prod.snd := by
    rw [same]
    exact List.mem_map_of_mem member
  obtain ⟨entry, here, done⟩ := List.mem_map.mp inside
  have reads := course.reads entry here
  rw [done] at reads
  exact reads

namespace Collection

/-- What is written down of a transaction for reading, by what is written down inside it. -/
inductive Within {β : Type} (inside : τ → List (Deed τ α ι) → Except QueryError β → Prop) :
    List (Deed τ α ι) → Except QueryError β → Prop
  | unbegun {error} : Within inside [.begunRead .records (.error error)] (.error (.store error))
  | failed {tx deeds error} (fails : inside tx deeds (.error error)) :
      Within inside (.begunRead .records (.ok tx) :: (deeds ++ [.released tx])) (.error error)
  | uncommitted {tx deeds value error} (succeeds : inside tx deeds (.ok value)) :
      Within inside (.begunRead .records (.ok tx) :: (deeds ++ [.committed tx (.error error)]))
        (.error (.store error))
  | committed {tx deeds value} (succeeds : inside tx deeds (.ok value)) :
      Within inside (.begunRead .records (.ok tx) :: (deeds ++ [.committed tx (.ok ())])) (.ok value)

variable {collection : Collection σ τ α ι} {names : List IndexName} {tx : τ}

/-- The reads inside a transaction are written down between its beginning and its end. -/
theorem logs_within {β : Type} {watched : τ → QueryAction (Watched (Deed τ α ι) σ) β}
    {plain : τ → QueryAction σ β} {inside : τ → List (Deed τ α ι) → Except QueryError β → Prop}
    (logs : ∀ tx, Watched.Logs (watched tx) (plain tx) (inside tx)) :
    Watched.Logs
      (collection.watched.transactions.within .store collection.watched.records.beginRead watched)
      (collection.transactions.within .store collection.records.beginRead plain) (Within inside) := by
  intro past world
  have begins {outcome : Except StoreError τ} {opened : σ}
      (begun : collection.records.beginRead world = (outcome, opened)) :
      collection.watched.records.beginRead ⟨past, world⟩ =
        (outcome, ⟨past ++ [.begunRead .records outcome], opened⟩) := Watched.act_apply _ begun past
  have commits {tx : τ} {outcome : Except StoreError Unit} {last next : σ} (earlier : List (Deed τ α ι))
      (committed : collection.transactions.commit tx last = (outcome, next)) :
      collection.watched.transactions.commit tx ⟨earlier, last⟩ =
        (outcome, ⟨earlier ++ [.committed tx outcome], next⟩) := Watched.act_apply _ committed earlier
  rcases begun : collection.records.beginRead world with ⟨error | tx, opened⟩
  · rw [Transactions.within_of_unbegun begun]
    exact ⟨_, Transactions.within_of_unbegun (begins begun), .unbegun⟩
  obtain ⟨deeds, same, fine⟩ := logs tx (past ++ [.begunRead .records (.ok tx)]) opened
  rcases ended : plain tx opened with ⟨error | value, last⟩
  · rw [ended] at same fine
    rw [Transactions.within_of_error begun ended]
    refine ⟨_, (Transactions.within_of_error (begins begun) same).trans ?_, .failed fine⟩
    simp [Collection.watched]
  rw [ended] at same fine
  rcases committed : collection.transactions.commit tx last with ⟨error | ⟨⟩, next⟩
  · rw [Transactions.within_of_uncommitted begun ended committed]
    refine ⟨_, (Transactions.within_of_uncommitted (begins begun) same (commits _ committed)).trans ?_,
      .uncommitted fine⟩
    simp
  · rw [Transactions.within_of_ok begun ended committed]
    refine ⟨_, (Transactions.within_of_ok (begins begun) same (commits _ committed)).trans ?_,
      .committed fine⟩
    simp

/-- What is written down of the reads of a lookup takes it to the end of its transaction, with the records
found by then; if a read fails the lookup is over once the transaction is released. -/
def ReadsOn (names : List IndexName) (tx : τ) (phase : Phase τ α ι) (before : List α)
    (deeds : List (Deed τ α ι)) : Except QueryError (List α) → Prop
  | .ok found => phase.Passage names (deeds.map .done) (.fetch tx [] (before ++ found))
  | .error error => phase.Passage names ((deeds ++ [Deed.released tx]).map .done) (.over (.error error))

/-- A deed more at the beginning takes the lookup to the phase from which it reads on. -/
theorem ReadsOn.step {phase next : Phase τ α ι} {deed : Deed τ α ι} {deeds : List (Deed τ α ι)}
    {before after : List α} {outcome answer : Except QueryError (List α)}
    (advances : phase.Advances names [.done deed] next) (reads : ReadsOn names tx next after deeds outcome)
    (answers : answer.map (before ++ ·) = outcome.map (after ++ ·)) :
    ReadsOn names tx phase before (deed :: deeds) answer := by
  cases outcome with
  | ok found =>
    cases answer with
    | error cause => cases answers
    | ok records =>
      have same : before ++ records = after ++ found := Except.ok.inj answers
      have passage := Phase.Passage.step advances reads
      rw [ReadsOn, same]
      exact passage
  | error cause =>
    cases answer with
    | ok records => cases answers
    | error error =>
      cases answers
      exact Phase.Passage.step advances reads

theorem logs_fetch (names : List IndexName) (ids : List ι) (before : List α) :
    Watched.Logs (collection.watched.fetch tx ids) (collection.fetch tx ids)
      (ReadsOn names tx (.fetch tx ids before) before) := by
  induction ids generalizing before with
  | nil =>
    intro past world
    refine ⟨[], by simp [fetch], ?_⟩
    change ReadsOn names tx _ before [] (.ok [])
    rw [ReadsOn, List.append_nil]
    exact .stay
  | cons id rest ih =>
    rw [fetch, fetch]
    refine (Watched.logs_act_bind (fun outcome => Deed.asked tx (.find id) (outcome.map .found))
      (collection.records.find tx id) QueryError.store fun held =>
        (ih (before ++ held.toList)).bind fun others _ _ =>
          Watched.logs_ofExcept (.ok (held.toList ++ others))).mono ?_
    rintro deeds answer (⟨error, rfl, rfl⟩ | ⟨held, later, rfl, rest⟩)
    · exact .single .unfetched
    · rcases rest with ⟨error, reads, rfl⟩ | ⟨others, deeds, _, rfl, reads, rfl, rfl⟩
      · exact .step .fetched reads rfl
      · rw [List.append_nil]
        exact .step .fetched reads (congrArg Except.ok (List.append_assoc ..).symm)

/-- What is written down of the transaction of a lookup takes it to its end. -/
theorem passage_of_within {β : Type} {lookup : Lookup ι} {records : β → List α}
    {deeds : List (Deed τ α ι)} {outcome : Except QueryError β}
    (within : Within (fun tx deeds outcome =>
      ReadsOn names tx (lookup.reading tx) [] deeds (outcome.map records)) deeds outcome) :
    Phase.Passage names (.begin lookup) (deeds.map .done) (.over (outcome.map records)) := by
  cases within with
  | unbegun => exact .single .unbegun
  | failed fails => exact .step .begun fails
  | uncommitted succeeds =>
    rw [List.map_cons, List.map_append]
    exact .step .begun (Phase.Passage.append succeeds (.single .uncommitted))
  | committed succeeds =>
    rw [List.map_cons, List.map_append]
    exact .step .begun (Phase.Passage.append succeeds (.single .committed))

theorem logs_getById (names : List IndexName) (id : ι) :
    Watched.Logs (collection.watched.getById id) (collection.getById id) fun deeds outcome =>
      Phase.Passage names (.begin (.byId id)) (deeds.map .done) (.over (outcome.map Option.toList)) := by
  refine (logs_within fun tx => ?_).mono fun deeds outcome => passage_of_within
  refine ((Watched.logs_act (fun outcome => Deed.asked tx (.find id) (outcome.map .found))
    (collection.records.find tx id)).mapError QueryError.store).mono ?_
  rintro deeds outcome ⟨ended, rfl, rfl⟩
  cases ended with
  | error cause => exact .single .unfetched
  | ok held => exact .single .fetched

theorem logs_searchByIndex {name : IndexName} {store : LeafStore σ τ IndexValue (IdSet ι)}
    (found : collection.index name = .ok store) (value : IndexValue) :
    Watched.Logs (collection.watched.searchByIndex name value) (collection.searchByIndex name value)
      fun deeds outcome =>
        Phase.Passage names (.begin (.byField name value)) (deeds.map .done) (.over outcome) := by
  rw [searchByIndex, searchByIndex, found, index_watched found]
  have logs (tx : τ) : Watched.Logs
      (do
        let entry ← ((Watched.store (Deed.indexNotes name) store).find tx value).mapError .store
        collection.watched.fetch tx (entry.getD .empty).ids :
          QueryAction (Watched (Deed τ α ι) σ) (List α))
      (do
        let entry ← (store.find tx value).mapError .store
        collection.fetch tx (entry.getD .empty).ids)
      fun deeds outcome =>
        ReadsOn names tx (Lookup.reading tx (.byField name value)) [] deeds (outcome.map id) := by
    refine (Watched.logs_act_bind
      (fun outcome => Deed.askedIndex name tx (.find value) (outcome.map .found))
      (store.find tx value) QueryError.store fun entry =>
        logs_fetch names (entry.getD .empty).ids []).mono ?_
    rintro deeds outcome (⟨error, rfl, rfl⟩ | ⟨entry, later, rfl, reads⟩)
    · exact .single .unlisted
    · rw [Except.map_id]
      exact .step .listed reads rfl
  refine (logs_within logs).mono fun deeds outcome within => ?_
  have passage := passage_of_within within
  rwa [Except.map_id] at passage

variable [DecidableEq ι] [Record α ι]

omit [DecidableEq ι] [Record α ι] in
theorem logs_pair {former latter : Operation ι}
    {watched watched' : QueryAction (Watched (Deed τ α ι) σ) (List α)}
    {plain plain' : QueryAction σ (List α)} (combine : List α → List α → List α)
    (first : Watched.Logs watched plain (Consecutive names former.lookups))
    (second : Watched.Logs watched' plain' (Consecutive names latter.lookups)) :
    Watched.Logs (do let left ← watched; let right ← watched'; pure (combine left right))
      (do let left ← plain; let right ← plain'; pure (combine left right))
      (Consecutive names (former.lookups ++ latter.lookups)) := by
  refine (first.bind fun left _ _ => second.bind fun right _ _ =>
    Watched.logs_ofExcept (.ok (combine left right))).mono ?_
  rintro _ _ (⟨error, ⟨parts, rfl, stopped⟩, rfl⟩ | ⟨left, _, _, rfl, ⟨parts, rfl, went⟩, rest⟩)
  · exact ⟨parts, rfl, stopped.stop _⟩
  · rcases rest with ⟨error, ⟨more, rfl, stopped⟩, rfl⟩ | ⟨right, _, _, rfl, ⟨more, rfl, went'⟩, rfl, rfl⟩
    · exact ⟨parts ++ more, by simp, went.append stopped⟩
    · exact ⟨parts ++ more, by simp, went.append went'⟩

/-- The lookups of a plan are made in turn, from left to right, up to the first one that fails. -/
theorem logs_run (indexed : ∀ name, (collection.indexes.get? name).isSome = true ↔ name ∈ names)
    (operation : Operation ι) :
    Watched.Logs (collection.watched.run operation) (collection.run operation)
      (Consecutive names operation.lookups) := by
  induction operation with
  | byId id =>
    have declared : (Lookup.byId id).Declared names := True.intro
    refine ((logs_getById names id).bind fun found _ _ => Watched.logs_ofExcept (.ok found.toList)).mono ?_
    rintro _ _ (⟨error, passage, rfl⟩ | ⟨found, deeds, _, rfl, passage, rfl, rfl⟩)
    · exact InTurn.single (looked_of_begin declared passage)
    · rw [List.append_nil]
      exact InTurn.single (looked_of_begin declared passage)
  | byField name value =>
    rcases opened : collection.indexes.get? name with _ | store
    · have undeclared : name ∉ names := by
        intro declared
        have there := (indexed name).mpr declared
        rw [opened] at there
        cases there
      have missing : collection.index name = .error (.unknownIndex name) := by rw [index, opened]
      have missingToo : collection.watched.index name = .error (.unknownIndex name) := by
        rw [index, get?_watched, opened]
        rfl
      rw [run, run, searchByIndex, searchByIndex, missing, missingToo]
      intro past world
      refine ⟨[], by simp [Action.bind_apply], [[]], rfl, ?_⟩
      exact .failed (.single (.refused undeclared))
    · have found : collection.index name = .ok store := by rw [index, opened]
      have declared : (Lookup.byField name value : Lookup ι).Declared names :=
        (indexed name).mp (by rw [opened]; rfl)
      exact (logs_searchByIndex found value).mono fun deeds outcome passage =>
        InTurn.single (looked_of_begin declared passage)
  | both left right ihLeft ihRight => exact logs_pair intersect ihLeft ihRight
  | either left right ihLeft ihRight => exact logs_pair union ihLeft ihRight

omit [DecidableEq ι] [Record α ι] in
theorem mem_lookups {name : IndexName} {operation : Operation ι} (named : name ∈ operation.indexNames) :
    ∃ value, Lookup.byField name value ∈ operation.lookups := by
  induction operation with
  | byId id => cases named
  | byField other value =>
    cases List.mem_singleton.mp named
    exact ⟨value, List.mem_singleton_self _⟩
  | both left right ihLeft ihRight =>
    rcases List.mem_append.mp named with inLeft | inRight
    · exact (ihLeft inLeft).imp fun _ member => List.mem_append_left _ member
    · exact (ihRight inRight).imp fun _ member => List.mem_append_right _ member
  | either left right ihLeft ihRight =>
    rcases List.mem_append.mp named with inLeft | inRight
    · exact (ihLeft inLeft).imp fun _ member => List.mem_append_left _ member
    · exact (ihRight inRight).imp fun _ member => List.mem_append_right _ member

omit [DecidableEq ι] [Record α ι] in
/-- If a plan needs an index that does not exist, the lookup in it may be refused before anything is
done. -/
theorem course_of_undeclared {name : IndexName} {lookups : List (Lookup ι)} {value : IndexValue}
    (member : .byField name value ∈ lookups) (undeclared : name ∉ names) :
    ∃ final : List (Phase τ α ι), Course names (lookups.map .fresh) [] final ∧
      (∀ last ∈ final, last.Settled) ∧ Phase.EndedWith final (some (.unknownIndex name)) := by
  obtain ⟨position, here⟩ := List.getElem?_of_mem member
  have fresh : (lookups.map Phase.fresh)[position]? =
      some (.fresh (.byField name value) : Phase τ α ι) := by
    rw [List.getElem?_map, here, Option.map_some]
  refine ⟨_, .step fresh (.refused undeclared) .stay, ?_, ?_⟩
  · intro last member
    rcases List.mem_or_eq_of_mem_set member with before | rfl
    · obtain ⟨lookup, _, rfl⟩ := List.mem_map.mp before
      exact .fresh lookup
    · exact .over _
  · exact List.mem_set (List.getElem?_eq_some_iff.mp fresh).1 _

/-- What is written down when a plan is run is one of the courses that its lookups can take: if the plan
succeeds all of them are over and have succeeded, and if it fails one of them is over and has failed as the
plan does. If they are to follow each other, they do so from left to right and up to the first one that
fails, and the plan fails as that one does. -/
structure Ran (names : List IndexName) (order : Lookups) (operation : Operation ι)
    (deeds : List (Deed τ α ι)) (outcome : Except QueryError (List α)) : Prop where
  course : ∃ trace final, Course names (operation.lookups.map .fresh) trace final ∧
    (∀ last ∈ final, last.Settled) ∧ Phase.EndedWith final (failure? outcome) ∧
    trace.map Prod.snd = deeds.map .done
  inTurn : order = .inTurn → Consecutive names operation.lookups deeds outcome

theorem logs_execute (indexed : ∀ name, (collection.indexes.get? name).isSome = true ↔ name ∈ names)
    (operation : Operation ι) :
    Watched.Logs (collection.watched.execute operation) (collection.execute operation)
      (Ran names collection.lookups operation) := by
  have runs (order : Lookups) : Watched.Logs (collection.watched.run operation)
      (collection.run operation) (Ran names order operation) := by
    refine (logs_run indexed operation).mono ?_
    rintro _ outcome ⟨parts, rfl, inTurn⟩
    exact ⟨inTurn.course [] (by simp [Phase.EndedWith]), fun _ => ⟨parts, rfl, inTurn⟩⟩
  have same : collection.watched.lookups = collection.lookups := rfl
  have missing : collection.watched.missingIndex? operation = collection.missingIndex? operation := by
    simp only [missingIndex?, get?_watched, Option.isNone_map]
  rw [execute, execute, same, missing]
  cases collection.lookups with
  | inTurn => exact runs .inTurn
  | together =>
    cases absent : collection.missingIndex? operation with
    | none => exact runs .together
    | some name =>
      have named : name ∈ operation.indexNames := List.mem_of_find?_eq_some absent
      have undeclared : name ∉ names := by
        intro declared
        have there := (indexed name).mpr declared
        have gone := List.find?_some absent
        rw [Option.isNone_iff_eq_none] at gone
        rw [gone] at there
        cases there
      obtain ⟨value, member⟩ := mem_lookups named
      refine (Watched.logs_ofExcept (.error (QueryError.unknownIndex name))).mono ?_
      rintro _ _ ⟨rfl, rfl⟩
      obtain ⟨final, course, settled, refused⟩ := course_of_undeclared member undeclared
      refine ⟨⟨[], final, course, settled, refused, rfl⟩, ?_⟩
      intro inTurn
      cases inTurn

omit [DecidableEq ι] [Record α ι] in
/-- In a collection that was built there are just the indexes of its fields. -/
theorem indexed_of_build {transactions : Transactions σ τ} {lookups : Lookups}
    {records : LeafStore σ τ ι α}
    {factory : IndexName → StoreAction σ (LeafStore σ τ IndexValue (IdSet ι))}
    {fields : List (IndexedField α)} {opening ready : σ}
    (built : build transactions lookups records factory fields opening = (.ok collection, ready)) :
    collection.lookups = lookups ∧ ∀ name, (collection.indexes.get? name).isSome = true ↔
      name ∈ fields.map IndexedField.name := by
  obtain ⟨indexes, _, extended, made⟩ := Action.bind_eq_ok built
  cases made
  refine ⟨rfl, fun name => ?_⟩
  rw [Indexes.isSome_get?_iff, Indexes.names_of_extend extended]
  exact Iff.rfl

variable [Identifier ι]

/-- However the stores of a collection behave: a query that is refused asks them for nothing; a plan that
is run takes one of the courses of its lookups, which follow each other if they are to; and in each
course, whatever the order in which lookups get their replies and wherever they are given up, nothing is
done but reading, and each lookup that is reached and has its index begins one read transaction on the
primary store, reads in it, and commits it if all reads succeeded and releases it otherwise. A store that
has no lookups of its own is asked for one get by each. -/
theorem build_execute_orderly {transactions : Transactions σ τ} {lookups : Lookups}
    {records : LeafStore σ τ ι α}
    {factory : IndexName → StoreAction σ (LeafStore σ τ IndexValue (IdSet ι))}
    {fields : List (IndexedField α)} {opening ready : σ}
    (built : build transactions lookups records factory fields opening = (.ok collection, ready)) :
    (∀ scope expr cause, collection.plan scope expr = .error cause → ∀ past world,
      collection.find scope expr world = (.error cause, world) ∧
        collection.watched.find scope expr ⟨past, world⟩ = (.error cause, ⟨past, world⟩)) ∧
    (∀ operation past world, ∃ deeds,
      collection.watched.execute operation ⟨past, world⟩ =
          ((collection.execute operation world).1,
            ⟨past ++ deeds, (collection.execute operation world).2⟩) ∧
        (∀ deed ∈ deeds, deed.reads = true) ∧
        Ran (fields.map IndexedField.name) lookups operation deeds
          (collection.execute operation world).1) ∧
    (∀ (operation : Operation ι) (trace : List (Nat × Act τ α ι)) (final : List (Phase τ α ι)),
      Course (fields.map IndexedField.name) (operation.lookups.map .fresh) trace final →
      (∀ last ∈ final, last.Settled) →
      (∀ entry ∈ trace, entry.2.deed.reads = true) ∧
        ∀ position (lookup : Lookup ι), operation.lookups[position]? = some lookup →
          ∃ last, final[position]? = some last ∧
            lookup.Orderly (fields.map IndexedField.name) (Course.own position trace) last) ∧
    ∀ {κ ν : Type} (notes : Watched.Notes (Deed τ α ι) τ κ ν) (store : LeafStore σ τ κ ν) (tx : τ)
      (key : κ), Watched.Logs ((Watched.store notes store).withPlainLookups.find tx key)
        (store.withPlainLookups.find tx key) fun deeds _ =>
          ∃ outcome, deeds = [notes.asked tx (.get key) outcome] := by
  obtain ⟨rfl, indexed⟩ := indexed_of_build built
  refine ⟨?_, ?_, ?_, Watched.logs_findByGet⟩
  · intro scope expr cause refused past world
    have refusedToo : collection.watched.plan scope expr = .error cause := refused
    rw [find, refused, Action.bind_of_error (Action.ofExcept_apply ..), find, refusedToo,
      Action.bind_of_error (Action.ofExcept_apply ..)]
    exact ⟨rfl, rfl⟩
  · intro operation past world
    obtain ⟨deeds, same, ran⟩ := logs_execute indexed operation past world
    obtain ⟨_, _, course, _, _, done⟩ := ran.course
    exact ⟨deeds, same, course.reads_of_deeds done, ran⟩
  · intro operation trace final course settled
    exact course.orderly settled

/-- What is done for a record in memory that is found through its index, and for one in a database that is
found by its id as well, is written down; so is that nothing is done where an index is missing. -/
theorem build_execute_nestedRecord :
    (inMemory (IndexedField.members ["a.b"]) (MemoryWorld.empty : MemoryWorld Numbered Int64) =
        (.ok (memory (IndexedField.members ["a.b"])), .empty) ∧
      ∃ deeds next, (memory (IndexedField.members ["a.b"])).watched.execute
          (.byField (.parse "a.b") (.text "1"))
          ⟨[], ((memory (IndexedField.members ["a.b"])).insert nestedRecord .empty).2⟩ =
          (.ok [nestedRecord], ⟨deeds, next⟩) ∧
        Ran [.parse "a.b"] .inTurn (.byField (.parse "a.b") (.text "1")) deeds (.ok [nestedRecord])) ∧
    ∃ ready, openStored "people" (IndexedField.members ["a.b"]) .empty = (.ok people, ready) ∧
      (∃ deeds next, people.watched.execute (.both (.byField (.parse "a.b") (.text "1")) (.byId 1))
          ⟨[], (people.insert nestedRecord ready).2⟩ = (.ok [nestedRecord], ⟨deeds, next⟩) ∧
        Ran [.parse "a.b"] .together (.both (.byField (.parse "a.b") (.text "1")) (.byId 1)) deeds
          (.ok [nestedRecord])) ∧
      ∃ deeds next, people.watched.execute (.either (.byId 1) (.byField (.parse "c") .null))
          ⟨[], (people.insert nestedRecord ready).2⟩ =
          (.error (.unknownIndex (.parse "c")), ⟨deeds, next⟩) ∧
        Ran [.parse "a.b"] .together (.either (.byId 1) (.byField (.parse "c") .null) : Operation Int64)
          deeds (.error (.unknownIndex (.parse "c")) : Except QueryError (List Numbered)) := by
  constructor
  · have distinct :
        ((IndexedField.members ["a.b"] : List (IndexedField Numbered)).map IndexedField.name).Nodup := by
      simp [IndexedField.members]
    have built : inMemory (IndexedField.members ["a.b"]) (MemoryWorld.empty : MemoryWorld Numbered Int64) =
        (.ok (memory (IndexedField.members ["a.b"])), .empty) := inMemory_eq distinct
    obtain ⟨deeds, same, _, ran⟩ := (build_execute_orderly built).2.1
      (.byField (.parse "a.b") (.text "1")) []
      ((memory (IndexedField.members ["a.b"])).insert nestedRecord .empty).2
    have found : ((memory (IndexedField.members ["a.b"])).execute (.byField (.parse "a.b") (.text "1"))
        ((memory (IndexedField.members ["a.b"])).insert nestedRecord
          (MemoryWorld.empty : MemoryWorld Numbered Int64)).2).1 = .ok [nestedRecord] := by decide +kernel
    rw [found] at same ran
    exact ⟨built, deeds, _, same, ran⟩
  · have opened : openStored "people" (IndexedField.members ["a.b"]) .empty = (.ok people, _) :=
      openStored_of_isOk Database.unused_empty (by decide +kernel)
    obtain ⟨_, _, built⟩ := build_of_openStored opened
    have runs := (build_execute_orderly built).2.1
    refine ⟨_, opened, ?_, ?_⟩
    · obtain ⟨deeds, same, _, ran⟩ := runs (.both (.byField (.parse "a.b") (.text "1")) (.byId 1)) []
        (people.insert nestedRecord _).2
      have found : (people.execute (.both (.byField (.parse "a.b") (.text "1")) (.byId 1))
          (people.insert nestedRecord
            (openStored "people" (IndexedField.members ["a.b"] : List (IndexedField Numbered))
              Database.empty).2).2).1 = .ok [nestedRecord] := by decide +kernel
      rw [found] at same ran
      exact ⟨deeds, _, same, ran⟩
    · obtain ⟨deeds, same, _, ran⟩ := runs (.either (.byId 1) (.byField (.parse "c") .null)) []
        (people.insert nestedRecord _).2
      have refused : (people.execute (.either (.byId 1) (.byField (.parse "c") .null))
          (people.insert nestedRecord
            (openStored "people" (IndexedField.members ["a.b"] : List (IndexedField Numbered))
              Database.empty).2).2).1 = .error (.unknownIndex (.parse "c")) := by decide +kernel
      rw [refused] at same ran
      exact ⟨deeds, _, same, ran⟩

end Collection

end DocStore
