import DocStore.Proofs.Collection.Conduct
import DocStore.Proofs.Collection.Memory

namespace DocStore.Collection

variable {σ τ α ι : Type} [DecidableEq ι] [Record α ι]

/-- The primary store has replied that it added or removed a record. -/
def Took (change : Change α ι) (tx : τ) (record : α) (deeds : List (Deed τ α ι)) : Prop :=
  ∃ reply, .asked tx change.request (.ok reply) ∈ deeds ∧ change.affected? reply = some record

/-- The calls on indexes are one successful update for each field, in the order of the fields, under the
value that the field has in a record. -/
def ListedIn (fields : List (IndexedField α)) (change : Change α ι) (tx : τ) (record : α)
    (deeds : List (Deed τ α ι)) : Prop :=
  ∃ entries, ProjectsTo fields record entries ∧
    List.Forall₂ (fun entry deed => ∃ reply,
      deed = Deed.askedIndex entry.1 tx (change.update entry.2) (.ok reply))
      entries (deeds.filter Deed.onIndex)

/-- The primary store has replied that the id is taken already or has no record to remove. -/
def Unneeded (change : Change α ι) (tx : τ) (deeds : List (Deed τ α ι)) : Prop :=
  ∃ reply, .asked tx change.request (.ok reply) ∈ deeds ∧ change.unneeded reply = true

/-- The stores of a collection are used as they should be by a change in a transaction of its own. -/
structure Orderly (fields : List (IndexedField α)) (change : Change α ι) (deeds : List (Deed τ α ι))
    (answer : Except QueryError Bool) : Prop where
  /-- There is one attempt to begin a transaction, on the primary store and before anything else. -/
  begun : ∃ outcome rest, deeds = .begun .records outcome :: rest ∧ ∀ deed ∈ rest, deed.begins = false
  /-- A transaction that was begun is ended once, after everything else. -/
  ended : ∀ tx, .begun .records (.ok tx) ∈ deeds → ∃ before last, deeds = before ++ [last] ∧
    last.ends? = some tx ∧ ∀ deed ∈ before, deed.ends? = none
  /-- Without a transaction there is nothing to end. -/
  unbegun : (∀ tx, .begun .records (.ok tx) ∉ deeds) → ∀ deed ∈ deeds, deed.ends? = none
  /-- It is committed when the record and all its index entries were changed. -/
  committed : ∀ tx, (∃ outcome, .committed tx outcome ∈ deeds) ↔
    ∃ record, Took change tx record deeds ∧ ListedIn fields change tx record deeds
  /-- It is aborted when there was nothing to change. -/
  aborted : ∀ tx, (∃ outcome, .aborted tx outcome ∈ deeds) ↔ Unneeded change tx deeds
  /-- It is released in every other case. -/
  released : ∀ tx, .released tx ∈ deeds ↔ .begun .records (.ok tx) ∈ deeds ∧
    ¬ (∃ record, Took change tx record deeds ∧ ListedIn fields change tx record deeds) ∧
    ¬ Unneeded change tx deeds
  /-- Where there was nothing to change no index is touched. -/
  unlisted : ∀ tx outcome, .aborted tx outcome ∈ deeds → ∀ deed ∈ deeds, deed.onIndex = false
  /-- A failure is returned, and nothing but a release comes after it. -/
  failed : ∀ before deed after error, deeds = before ++ deed :: after → deed.failure? = some error →
    answer = .error (.store error) ∧ ∀ other ∈ after, ∃ tx, other = .released tx
  made : answer = .ok true ↔ ∃ tx, .committed tx (.ok ()) ∈ deeds
  unmade : answer = .ok false ↔ ∃ tx, .aborted tx (.ok ()) ∈ deeds

namespace Changed

variable {fields : List (IndexedField α)} {change : Change α ι} {tx : τ} {body : List (Deed τ α ι)}
  {inside : Except QueryError Bool}

theorem within (changed : Changed fields change tx body inside) :
    ∀ deed ∈ body, deed.begins = false ∧ deed.ends? = none := by
  have asked (outcome : Except StoreError (Reply α)) :
      (Deed.asked tx change.request outcome).begins = false ∧
        (Deed.asked tx change.request outcome : Deed τ α ι).ends? = none := ⟨rfl, rfl⟩
  cases changed with
  | unprojected => simp
  | failed => simpa using asked _
  | unneeded => simpa using asked _
  | stranded => simpa using asked _
  | listed affected projects updated answers =>
    intro deed member
    rcases List.mem_cons.mp member with rfl | later
    · exact asked _
    · obtain ⟨_, _, _, rfl⟩ := updated.asked deed later
      exact ⟨rfl, rfl⟩

theorem asked_once (changed : Changed fields change tx body inside) {other : τ}
    {request : Request ι α} {outcome : Except StoreError (Reply α)}
    (member : .asked other request outcome ∈ body) :
    ∃ rest, body = .asked tx request outcome :: rest ∧ other = tx ∧
      ∀ deed ∈ rest, deed.onIndex = true := by
  cases changed with
  | unprojected => simp at member
  | failed =>
    obtain ⟨rfl, rfl, rfl⟩ : other = tx ∧ request = change.request ∧ outcome = _ := by simpa using member
    exact ⟨[], rfl, rfl, by simp⟩
  | unneeded =>
    obtain ⟨rfl, rfl, rfl⟩ : other = tx ∧ request = change.request ∧ outcome = _ := by simpa using member
    exact ⟨[], rfl, rfl, by simp⟩
  | stranded =>
    obtain ⟨rfl, rfl, rfl⟩ : other = tx ∧ request = change.request ∧ outcome = _ := by simpa using member
    exact ⟨[], rfl, rfl, by simp⟩
  | listed affected projects updated answers =>
    cases updated.asked_first member
    refine ⟨_, rfl, rfl, ?_⟩
    intro deed later
    obtain ⟨_, _, _, rfl⟩ := updated.asked deed later
    rfl

theorem eq_ok_true_iff (changed : Changed fields change tx body inside) :
    inside = .ok true ↔ ∃ record, Took change tx record body ∧ ListedIn fields change tx record body := by
  cases changed with
  | unprojected => simp [Took]
  | failed => simp [Took]
  | unneeded idle => simp [Took, Change.affected?_of_unneeded idle]
  | @stranded reply record reason field affected declared failed =>
    constructor
    · intro same
      cases same
    · intro given
      obtain ⟨other, ⟨again, asked, took⟩, entries, projects, _⟩ := given
      obtain rfl : again = reply := by simpa using asked
      obtain rfl : other = record := Option.some.inj (took.symm.trans affected)
      obtain ⟨value, _, projected⟩ := projects.listed declared
      rw [failed] at projected
      cases projected
  | @listed reply record entries deeds outcome _ affected projects updated answers =>
    have onIndex : (Deed.asked tx change.request (.ok reply) :: deeds).filter Deed.onIndex = deeds := by
      rw [List.filter_cons_of_neg (by simp [Deed.onIndex]), List.filter_eq_self]
      intro deed member
      obtain ⟨_, _, _, rfl⟩ := updated.asked deed member
      rfl
    have made : inside = .ok true ↔ outcome = .ok () := by
      rw [answers]
      cases outcome <;> simp [Except.map]
    rw [made, updated.eq_ok_iff]
    constructor
    · intro all
      exact ⟨record, ⟨reply, by simp, affected⟩, entries, projects, by rw [onIndex]; exact all⟩
    · intro given
      obtain ⟨other, ⟨again, asked, took⟩, others, same, all⟩ := given
      cases updated.asked_first asked
      obtain rfl : other = record := Option.some.inj (took.symm.trans affected)
      rw [onIndex] at all
      rw [projects.unique same]
      exact all

theorem eq_ok_false_iff (changed : Changed fields change tx body inside) :
    inside = .ok false ↔ Unneeded change tx body := by
  have taken {reply record} (affected : change.affected? reply = some record) :
      change.unneeded reply = false := by
    rw [Bool.eq_false_iff]
    intro idle
    rw [Change.affected?_of_unneeded idle] at affected
    cases affected
  cases changed with
  | unprojected => simp [Unneeded]
  | failed => simp [Unneeded]
  | unneeded idle => simp [Unneeded, idle]
  | stranded affected => simp [Unneeded, taken affected]
  | @listed reply record entries deeds outcome _ affected projects updated answers =>
    constructor
    · intro unmade
      rw [answers] at unmade
      cases outcome <;> cases unmade
    · intro given
      obtain ⟨again, asked, idle⟩ := given
      cases updated.asked_first asked
      rw [taken affected] at idle
      cases idle

theorem unlisted (changed : Changed fields change tx body (.ok false)) :
    ∀ deed ∈ body, deed.onIndex = false := by
  obtain ⟨reply, asked, idle⟩ := changed.eq_ok_false_iff.mp rfl
  cases changed with
  | unneeded => simp [Deed.onIndex]
  | listed affected projects updated answers =>
    rename_i outcome
    cases outcome <;> cases answers

omit [DecidableEq ι] [Record α ι] in
theorem of_singleton {first deed : Deed τ α ι} {before after : List (Deed τ α ι)}
    (here : [first] = before ++ deed :: after) : deed = first ∧ after = [] := by
  cases before with
  | nil => simpa [eq_comm] using here
  | cons _ _ => simp at here

theorem failed_last (changed : Changed fields change tx body inside) {before after : List (Deed τ α ι)}
    {deed : Deed τ α ι} {error : StoreError} (here : body = before ++ deed :: after)
    (failed : deed.failure? = some error) : after = [] ∧ inside = .error (.store error) := by
  cases changed with
  | unprojected => simp at here
  | failed =>
    obtain ⟨rfl, rfl⟩ := of_singleton here
    cases failed
    exact ⟨rfl, rfl⟩
  | unneeded =>
    obtain ⟨rfl, rfl⟩ := of_singleton here
    cases failed
  | stranded =>
    obtain ⟨rfl, rfl⟩ := of_singleton here
    cases failed
  | listed affected projects updated answers =>
    cases before with
    | nil =>
      cases here
      cases failed
    | cons first before =>
      obtain ⟨last, ended⟩ := updated.failed_last (List.cons.inj here).2 failed
      rw [answers, ended]
      exact ⟨last, rfl⟩

end Changed

section

variable {fields : List (IndexedField α)} {change : Change α ι} {tx other : τ}
  {body : List (Deed τ α ι)} {inside answer : Except QueryError Bool} {last : Deed τ α ι}

omit [DecidableEq ι] [Record α ι] in
private theorem ending_mem_iff (quiet : ∀ deed ∈ body, deed.begins = false ∧ deed.ends? = none)
    {deed : Deed τ α ι} (ends : deed.ends?.isSome = true) :
    deed ∈ .begun .records (.ok tx) :: (body ++ [last]) ↔ deed = last := by
  have outside : deed ∉ body := by
    intro member
    rw [(quiet deed member).2] at ends
    cases ends
  have other : deed ≠ .begun .records (.ok tx) := by
    rintro rfl
    cases ends
  simp [outside, other]

omit [DecidableEq ι] [Record α ι] in
private theorem asked_mem_iff (closed : Closed tx inside last answer) {request : Request ι α}
    {outcome : Except StoreError (Reply α)} :
    .asked other request outcome ∈ Deed.begun .records (.ok tx) :: (body ++ [last]) ↔
      .asked other request outcome ∈ body := by
  have differs : .asked other request outcome ≠ last := by
    rintro rfl
    cases closed.ends.1
  simp [differs]

omit [DecidableEq ι] [Record α ι] in
private theorem filter_onIndex (closed : Closed tx inside last answer) :
    (Deed.begun .records (.ok tx) :: (body ++ [last])).filter Deed.onIndex = body.filter Deed.onIndex := by
  have first : (Deed.begun .records (.ok tx) : Deed τ α ι).onIndex = false := rfl
  simp [first, closed.ends.2.2]

private theorem made_iff (changed : Changed fields change tx body inside)
    (closed : Closed tx inside last answer) :
    (∃ record, Took change other record (.begun .records (.ok tx) :: (body ++ [last])) ∧
        ListedIn fields change other record (.begun .records (.ok tx) :: (body ++ [last]))) ↔
      other = tx ∧ inside = .ok true := by
  simp only [Took, ListedIn, asked_mem_iff closed, filter_onIndex closed]
  constructor
  · intro given
    obtain ⟨record, ⟨reply, asked, affected⟩, listed⟩ := given
    obtain ⟨_, _, rfl, _⟩ := changed.asked_once asked
    exact ⟨rfl, changed.eq_ok_true_iff.mpr ⟨record, ⟨reply, asked, affected⟩, listed⟩⟩
  · rintro ⟨rfl, made⟩
    exact changed.eq_ok_true_iff.mp made

private theorem unneeded_iff (changed : Changed fields change tx body inside)
    (closed : Closed tx inside last answer) :
    Unneeded change other (.begun .records (.ok tx) :: (body ++ [last])) ↔
      other = tx ∧ inside = .ok false := by
  simp only [Unneeded, asked_mem_iff closed]
  constructor
  · intro given
    obtain ⟨reply, asked, idle⟩ := given
    obtain ⟨_, _, rfl, _⟩ := changed.asked_once asked
    exact ⟨rfl, changed.eq_ok_false_iff.mpr ⟨reply, asked, idle⟩⟩
  · rintro ⟨rfl, unmade⟩
    exact changed.eq_ok_false_iff.mp unmade

private theorem orderly_unbegun (error : StoreError) :
    Orderly fields change [(Deed.begun .records (.error error) : Deed τ α ι)]
      (.error (.store error)) where
  begun := ⟨.error error, [], rfl, by simp⟩
  ended := by simp
  unbegun := by simp [Deed.ends?]
  committed := by simp [Took]
  aborted := by simp [Unneeded]
  released := by simp
  unlisted := by simp
  failed := by
    intro before deed after cause here failed
    obtain ⟨rfl, rfl⟩ := Changed.of_singleton here
    cases failed
    exact ⟨rfl, by simp⟩
  made := by simp
  unmade := by simp

private theorem failed_ended (changed : Changed fields change tx body inside)
    (closed : Closed tx inside last answer) {before after : List (Deed τ α ι)} {deed : Deed τ α ι}
    {error : StoreError}
    (here : Deed.begun .records (.ok tx) :: (body ++ [last]) = before ++ deed :: after)
    (failed : deed.failure? = some error) :
    answer = .error (.store error) ∧ ∀ other ∈ after, ∃ tx, other = .released tx := by
  cases before with
  | nil =>
    cases here
    cases failed
  | cons first before =>
    have rest : body ++ [last] = before ++ deed :: after := (List.cons.inj here).2
    rcases List.eq_nil_or_concat after with rfl | ⟨later, final, rfl⟩
    · obtain ⟨rfl, same⟩ := List.append_inj' rest rfl
      cases same
      exact ⟨closed.failed failed, by simp⟩
    · rw [List.concat_eq_append, ← List.cons_append, ← List.append_assoc] at rest
      obtain ⟨rfl, same⟩ := List.append_inj' rest rfl
      cases same
      obtain ⟨rfl, rfl⟩ := changed.failed_last rfl failed
      cases closed with
      | released => exact ⟨rfl, by simp⟩

/-- A change in a transaction of its own uses the stores as it should. -/
theorem ChangedAlone.orderly {deeds : List (Deed τ α ι)}
    (alone : ChangedAlone fields change deeds answer) :
    Orderly fields change deeds answer := by
  cases alone with
  | @unbegun error => exact orderly_unbegun error
  | @ended tx body inside last _ changed closed =>
    have quiet := changed.within
    have others : ∀ deed ∈ body ++ [last], deed.begins = false := by
      intro deed member
      rcases List.mem_append.mp member with within | final
      · exact (quiet deed within).1
      · rw [List.mem_singleton.mp final]
        exact closed.ends.2.1
    have committed (other : τ) (outcome : Except StoreError Unit) :
        .committed other outcome ∈ .begun .records (.ok tx) :: (body ++ [last]) ↔
          .committed other outcome = last := ending_mem_iff quiet rfl
    have aborted (other : τ) (outcome : Except StoreError Unit) :
        .aborted other outcome ∈ .begun .records (.ok tx) :: (body ++ [last]) ↔
          .aborted other outcome = last := ending_mem_iff quiet rfl
    have released (other : τ) : .released other ∈ .begun .records (.ok tx) :: (body ++ [last]) ↔
        .released other = last := ending_mem_iff quiet rfl
    have opened (other : τ) :
        .begun .records (.ok other) ∈ .begun .records (.ok tx) :: (body ++ [last]) ↔ other = tx := by
      constructor
      · intro member
        rcases List.mem_cons.mp member with same | later
        · cases same
          rfl
        · have quietLater := others _ later
          cases quietLater
      · rintro rfl
        simp
    refine
      { begun := ⟨_, _, rfl, others⟩
        ended := ?_
        unbegun := fun unbegun => absurd List.mem_cons_self (unbegun tx)
        committed := ?_
        aborted := ?_
        released := ?_
        unlisted := ?_
        failed := fun _ _ _ _ => failed_ended changed closed
        made := ?_
        unmade := ?_ }
    · intro other member
      obtain rfl := (opened other).mp member
      refine ⟨.begun .records (.ok other) :: body, last, rfl, closed.ends.1, ?_⟩
      intro deed member
      rcases List.mem_cons.mp member with rfl | within
      · rfl
      · exact (quiet deed within).2
    · intro other
      rw [made_iff changed closed, ← closed.committed_iff]
      simp only [committed]
    · intro other
      rw [unneeded_iff changed closed, ← closed.aborted_iff]
      simp only [aborted]
    · intro other
      rw [released, closed.released_iff, opened, made_iff changed closed, unneeded_iff changed closed]
      constructor
      · rintro ⟨rfl, unmade, needed⟩
        exact ⟨rfl, fun made => unmade made.2, fun unneeded => needed unneeded.2⟩
      · rintro ⟨rfl, unmade, needed⟩
        exact ⟨rfl, fun made => unmade ⟨rfl, made⟩, fun unneeded => needed ⟨rfl, unneeded⟩⟩
    · intro other outcome member deed here
      obtain ⟨rfl, rfl⟩ := closed.aborted_iff.mp ⟨outcome, (aborted other outcome).mp member⟩
      rcases List.mem_cons.mp here with rfl | later
      · rfl
      rcases List.mem_append.mp later with within | final
      · exact changed.unlisted deed within
      · rw [List.mem_singleton.mp final]
        exact closed.ends.2.2
    · rw [closed.made_iff]
      simp only [committed]
    · rw [closed.unmade_iff]
      simp only [aborted]

end

/-- However the stores of a collection behave: inserting and removing use them in an orderly way, and
inside a transaction of somebody else they begin and end none. -/
theorem build_change_orderly {transactions : Transactions σ τ} {lookups : Lookups}
    {records : LeafStore σ τ ι α}
    {factory : IndexName → StoreAction σ (LeafStore σ τ IndexValue (IdSet ι))}
    {fields : List (IndexedField α)} {opening ready : σ} {collection : Collection σ τ α ι}
    (built : build transactions lookups records factory fields opening = (.ok collection, ready))
    (past : List (Deed τ α ι)) (world : σ) :
    (∀ record, ∃ deeds, collection.watched.insert record ⟨past, world⟩ =
        ((collection.insert record world).1, ⟨past ++ deeds, (collection.insert record world).2⟩) ∧
      Orderly fields (.put record) deeds (collection.insert record world).1) ∧
    (∀ id, ∃ deeds, collection.watched.remove id ⟨past, world⟩ =
        ((collection.remove id world).1, ⟨past ++ deeds, (collection.remove id world).2⟩) ∧
      Orderly fields (.drop id) deeds (collection.remove id world).1) ∧
    (∀ tx record, ∃ deeds, collection.watched.insertIn tx record ⟨past, world⟩ =
        ((collection.insertIn tx record world).1,
          ⟨past ++ deeds, (collection.insertIn tx record world).2⟩) ∧
      ∀ deed ∈ deeds, deed.begins = false ∧ deed.ends? = none) ∧
    ∀ tx id, ∃ deeds, collection.watched.removeIn tx id ⟨past, world⟩ =
        ((collection.removeIn tx id world).1, ⟨past ++ deeds, (collection.removeIn tx id world).2⟩) ∧
      ∀ deed ∈ deeds, deed.begins = false ∧ deed.ends? = none := by
  obtain ⟨rfl, opened⟩ := index_of_build built
  refine ⟨?_, ?_, ?_, ?_⟩
  · intro record
    obtain ⟨deeds, same, alone⟩ := logs_changeAlone opened (.put record) past world
    exact ⟨deeds, same, alone.orderly⟩
  · intro id
    obtain ⟨deeds, same, alone⟩ := logs_changeAlone opened (.drop id) past world
    exact ⟨deeds, same, alone.orderly⟩
  · intro tx record
    obtain ⟨deeds, same, changed⟩ := logs_changeIn opened (.put record) past world
    exact ⟨deeds, same, changed.within⟩
  · intro tx id
    obtain ⟨deeds, same, changed⟩ := logs_changeIn opened (.drop id) past world
    exact ⟨deeds, same, changed.within⟩

/-- A record that goes into an empty collection in memory is committed, and so is its removal. -/
theorem build_change_nestedRecord :
    inMemory (IndexedField.members ["a.b", "c"]) (MemoryWorld.empty : MemoryWorld Numbered Int64) =
        (.ok (memory (IndexedField.members ["a.b", "c"])), .empty) ∧
      ∃ deeds held, (memory (IndexedField.members ["a.b", "c"])).watched.insert nestedRecord
          ⟨[], .empty⟩ = (.ok true, ⟨deeds, held⟩) ∧
        Orderly (IndexedField.members ["a.b", "c"]) (.put nestedRecord) deeds (.ok true) ∧
        ∃ more last, (memory (IndexedField.members ["a.b", "c"])).watched.remove 1 ⟨deeds, held⟩ =
            (.ok true, ⟨deeds ++ more, last⟩) ∧
          Orderly (IndexedField.members ["a.b", "c"]) (.drop 1) more (.ok true) := by
  have distinct :
      ((IndexedField.members ["a.b", "c"] : List (IndexedField Numbered)).map IndexedField.name).Nodup := by
    decide +kernel
  have built : inMemory (IndexedField.members ["a.b", "c"])
      (MemoryWorld.empty : MemoryWorld Numbered Int64) =
        (.ok (memory (IndexedField.members ["a.b", "c"])), .empty) := inMemory_eq distinct
  obtain ⟨deeds, same, inserted⟩ := (build_change_orderly built [] .empty).1 nestedRecord
  have made : ((memory (IndexedField.members ["a.b", "c"])).insert nestedRecord
      (MemoryWorld.empty : MemoryWorld Numbered Int64)).1 = .ok true := by decide +kernel
  rw [made] at same inserted
  obtain ⟨more, further, removed⟩ := (build_change_orderly built deeds
    ((memory (IndexedField.members ["a.b", "c"])).insert nestedRecord .empty).2).2.1 1
  have unmade : ((memory (IndexedField.members ["a.b", "c"])).remove 1
      ((memory (IndexedField.members ["a.b", "c"])).insert nestedRecord
        (MemoryWorld.empty : MemoryWorld Numbered Int64)).2).1 = .ok true := by decide +kernel
  rw [unmade] at further removed
  exact ⟨built, deeds, _, same, inserted, more, _, further, removed⟩

end DocStore.Collection
