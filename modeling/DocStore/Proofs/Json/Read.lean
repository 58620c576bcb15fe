import DocStore.Json.Reader
import DocStore.Proofs.Json.Order
import DocStore.Proofs.Json.Scan

namespace DocStore.Json

variable {limit : Nat}

namespace Progress

/-- Some tokens lead from one state of reading to another. -/
def Leads (limit : Nat) (start : Progress) (row : List Token) (next : Progress) : Prop :=
  row.foldlM (step? limit) start = some next

variable {start middle next : Progress} {token : Token} {row more : List Token}

theorem Leads.cons (first : step? limit start token = some middle) (rest : Leads limit middle row next) :
    Leads limit start (token :: row) next := by
  rw [Leads, List.foldlM_cons, first]
  exact rest

theorem Leads.append (first : Leads limit start row middle) (second : Leads limit middle more next) :
    Leads limit start (row ++ more) next := by
  rw [Leads] at first
  rw [Leads, List.foldlM_append, first]
  exact second

theorem Leads.single (step : step? limit start token = some next) : Leads limit start [token] next :=
  .cons step rfl

end Progress

open Progress

theorem intercalate_eq (row : List Token) (rows : List (List Token)) :
    ∃ more, [Token.comma].intercalate (row :: rows) = row ++ more := by
  cases rows with
  | nil => exact ⟨[], by simp⟩
  | cons second others =>
    exact ⟨[Token.comma] ++ [Token.comma].intercalate (second :: others), by
      rw [List.intercalate_cons_cons, List.append_assoc]⟩

private theorem Leads.ofItem {value : Json} {more : List Token} {stack : List Frame} {next : Progress}
    (leads : Leads limit (.needValue (.array [] :: stack)) (value.tokens ++ more) next) :
    Leads limit (.needItem stack) (value.tokens ++ more) next := by
  cases value <;> exact leads

mutual

/-- Reading the tokens of a value hands it to the innermost open array or object. -/
theorem leads_tokens : ∀ (value : Json) (stack : List Frame), stack.length + value.depth ≤ limit →
    Leads limit (.needValue stack) value.tokens (give value stack)
  | .null, _, _ | .boolean _, _, _ | .number _, _, _ | .string _, _, _ => rfl
  | .array items, stack, fits => by
    rw [depth] at fits
    have opened : step? limit (.needValue stack) .openArray = some (.needItem stack) :=
      if_pos (by omega)
    refine .cons opened ?_
    cases items with
    | nil => exact .single rfl
    | cons item rest =>
      have inside := leads_itemTokens (item :: rest) [] stack (by simp) (by omega)
      have closes : Leads limit (.pastItem ((item :: rest).reverse ++ []) stack) [.closeArray]
          (give (.array (item :: rest)) stack) := .single (by simp [step?])
      obtain ⟨more, same⟩ := intercalate_eq item.tokens (itemTokens rest)
      rw [itemTokens, same] at inside ⊢
      exact (Leads.ofItem inside).append closes
  | .object members, stack, fits => by
    rw [depth] at fits
    have opened : step? limit (.needValue stack) .openObject = some (.needMember stack) :=
      if_pos (by omega)
    refine .cons opened ?_
    cases members with
    | nil => exact .single rfl
    | cons member rest =>
      have inside := leads_memberTokens (member :: rest) [] stack (by simp) (by omega)
      have closes : Leads limit (.pastMember ((member :: rest).reverse ++ []) stack) [.closeObject]
          (give (.object (member :: rest)) stack) := .single (by simp [step?])
      obtain ⟨more, same⟩ := intercalate_eq (oneMemberTokens member) (memberTokens rest)
      rw [memberTokens, same] at inside ⊢
      obtain ⟨key, value⟩ := member
      exact Leads.append inside closes

theorem leads_itemTokens : ∀ (items earlier : List Json) (stack : List Frame), items ≠ [] →
    stack.length + 1 + depthItems items ≤ limit →
    Leads limit (.needValue (.array earlier :: stack)) ([Token.comma].intercalate (itemTokens items))
      (.pastItem (items.reverse ++ earlier) stack)
  | [], _, _, nonempty, _ => absurd rfl nonempty
  | item :: rest, earlier, stack, _, fits => by
    rw [depthItems] at fits
    have first : Leads limit (.needValue (.array earlier :: stack)) item.tokens
        (.pastItem (item :: earlier) stack) :=
      leads_tokens item (.array earlier :: stack) (by rw [List.length_cons]; omega)
    cases rest with
    | nil => simpa [itemTokens] using first
    | cons second others =>
      have further := leads_itemTokens (second :: others) (item :: earlier) stack (by simp) (by omega)
      rw [itemTokens, itemTokens, List.intercalate_cons_cons, List.append_assoc]
      refine first.append (.cons rfl ?_)
      simpa [itemTokens] using further

theorem leads_memberTokens : ∀ (members earlier : List (String × Json)) (stack : List Frame),
    members ≠ [] → stack.length + 1 + depthMembers members ≤ limit →
    Leads limit (.needKey earlier stack) ([Token.comma].intercalate (memberTokens members))
      (.pastMember (members.reverse ++ earlier) stack)
  | [], _, _, nonempty, _ => absurd rfl nonempty
  | member :: rest, earlier, stack, _, fits => by
    rw [depthMembers] at fits
    have first := leads_oneMemberTokens member earlier stack (by omega)
    cases rest with
    | nil => simpa [memberTokens] using first
    | cons second others =>
      have further := leads_memberTokens (second :: others) (member :: earlier) stack (by simp) (by omega)
      rw [memberTokens, memberTokens, List.intercalate_cons_cons, List.append_assoc]
      refine first.append (.cons rfl ?_)
      simpa [memberTokens] using further

theorem leads_oneMemberTokens : ∀ (member : String × Json) (earlier : List (String × Json))
    (stack : List Frame), stack.length + 1 + depthMember member ≤ limit →
    Leads limit (.needKey earlier stack) (oneMemberTokens member) (.pastMember (member :: earlier) stack)
  | (key, value), earlier, stack, fits => by
    rw [depthMember] at fits
    have inside := leads_tokens value (.member earlier key :: stack) (by rw [List.length_cons]; omega)
    exact .cons rfl (.cons rfl inside)

end

/-- The compact text of a value denotes the value. -/
theorem readRaw?_compact {value : Json} (faithful : value.Faithful) (fits : value.depth ≤ limit) :
    readRaw? limit value.compact = some value := by
  have reached : value.tokens.foldlM (step? limit) (.needValue []) = some (give value []) :=
    leads_tokens value [] (by simpa using fits)
  rw [readRaw?, ofChars?_compact faithful]
  simp only [Option.bind_eq_bind, Option.bind_some, reached]
  rfl

theorem read?_compact {value : Json} (faithful : value.Faithful) (fits : value.depth ≤ nestingLimit)
    (ordered : value.Ordered) : read? value.compact = some value := by
  rw [read?, readRaw?_compact faithful fits, Option.map_some, sorted_of_ordered value ordered]

/-- No part of an open array or object is nested so deep that the whole would be nested deeper than the
limit. -/
def Frame.Fits (limit : Nat) : List Frame → Prop
  | [] => True
  | .array items :: rest => rest.length + 1 + depthItems items ≤ limit ∧ Frame.Fits limit rest
  | .member members _ :: rest => rest.length + 1 + depthMembers members ≤ limit ∧ Frame.Fits limit rest

namespace Progress

/-- What has been read is not nested deeper than the limit. -/
def Fits (limit : Nat) : Progress → Prop
  | .needValue stack => Frame.Fits limit stack
  | .needItem stack => Frame.Fits limit (.array [] :: stack)
  | .needMember stack => Frame.Fits limit (.member [] "" :: stack)
  | .needKey members stack => Frame.Fits limit (.member members "" :: stack)
  | .needColon members key stack => Frame.Fits limit (.member members key :: stack)
  | .pastItem items stack => Frame.Fits limit (.array items :: stack)
  | .pastMember members stack => Frame.Fits limit (.member members "" :: stack)
  | .done value => value.depth ≤ limit

theorem fits_give {value : Json} {stack : List Frame} (fits : Frame.Fits limit stack)
    (bounded : stack.length + value.depth ≤ limit) : (give value stack).Fits limit := by
  cases stack with
  | nil => simpa [give, Fits] using bounded
  | cons frame rest =>
    rw [List.length_cons] at bounded
    cases frame with
    | array items =>
      obtain ⟨deepest, others⟩ := fits
      refine ⟨?_, others⟩
      rw [depthItems]
      omega
    | member members key =>
      obtain ⟨deepest, others⟩ := fits
      refine ⟨?_, others⟩
      rw [depthMembers, depthMember]
      omega

end Progress

theorem Frame.Fits.length {stack : List Frame} (fits : Frame.Fits limit stack) :
    stack.length ≤ limit := by
  match stack, fits with
  | [], _ => exact Nat.zero_le _
  | .array _ :: _, ⟨deepest, _⟩ | .member _ _ :: _, ⟨deepest, _⟩ =>
    rw [List.length_cons]
    omega

def Token.Flat : Token → Prop
  | .literal value => value.depth = 0
  | _ => True

namespace Progress

theorem fits_start? {token : Token} {stack : List Frame} {next : Progress} (flat : token.Flat)
    (fits : Frame.Fits limit stack) (success : start? limit stack token = some next) :
    next.Fits limit := by
  have room := fits.length
  unfold start? at success
  split at success
  case h_1 =>
    split at success
    case isTrue =>
      cases success
      exact ⟨by rw [depthItems]; omega, fits⟩
    case isFalse => cases success
  case h_2 =>
    split at success
    case isTrue =>
      cases success
      exact ⟨by rw [depthMembers]; omega, fits⟩
    case isFalse => cases success
  case h_3 =>
    cases success
    exact fits_give fits room
  case h_4 value =>
    cases success
    have none : value.depth = 0 := flat
    exact fits_give fits (by omega)
  case h_5 => cases success

theorem fits_step? {token : Token} {progress next : Progress} (flat : token.Flat)
    (fits : progress.Fits limit) (success : step? limit progress token = some next) :
    next.Fits limit := by
  unfold step? at success
  split at success
  case h_1 => exact fits_start? flat fits success
  case h_2 stack =>
    cases success
    exact fits_give fits.2 (by have := fits.1; simp only [depth]; omega)
  case h_3 => exact fits_start? flat fits success
  case h_4 =>
    cases success
    exact fits
  case h_5 =>
    cases success
    exact fits_give fits.2 (by have := fits.1; rw [depth, depthItems_reverse]; omega)
  case h_6 =>
    cases success
    exact fits
  case h_7 =>
    cases success
    exact fits_give fits.2 (by have := fits.1; simp only [depth]; omega)
  case h_8 =>
    cases success
    exact fits
  case h_9 =>
    cases success
    exact fits
  case h_10 =>
    cases success
    exact fits
  case h_11 =>
    cases success
    exact fits_give fits.2 (by have := fits.1; rw [depth, depthMembers_reverse]; omega)
  case h_12 => cases success

end Progress

private theorem foldlM_some_invariant {σ α : Type} {step : σ → α → Option σ} {Holds : σ → Prop}
    {items : List α} (kept : ∀ state item next, item ∈ items → Holds state →
      step state item = some next → Holds next)
    {state last : σ} (initial : Holds state) (success : items.foldlM step state = some last) :
    Holds last := by
  induction items generalizing state with
  | nil =>
    cases success
    exact initial
  | cons item rest ih =>
    rw [List.foldlM_cons] at success
    obtain ⟨next, stepped, further⟩ := Option.bind_eq_some_iff.mp success
    exact ih (fun state other next member => kept state other next (List.mem_cons_of_mem _ member))
      (kept state item next (by simp) initial stepped) further

namespace Token

private theorem flat_begin? {before after : List Token} {c : Char} {scan : Scan}
    (flat : ∀ token ∈ before, token.Flat) (success : begin? before c = some (scan, after)) :
    ∀ token ∈ after, token.Flat := by
  have mark (token : Token) (plain : token.Flat) : ∀ other ∈ token :: before, other.Flat := by
    simpa using ⟨plain, flat⟩
  -- One alternative at a time: the whole chain of conditions is too large to be split at once.
  have choose {condition : Prop} [Decidable condition] {first : Scan × List Token}
      {others : Option (Scan × List Token)} (here : ∀ token ∈ first.2, token.Flat)
      (there : others = some (scan, after) → ∀ token ∈ after, token.Flat)
      (chosen : (if condition then some first else others) = some (scan, after)) :
      ∀ token ∈ after, token.Flat := by
    split at chosen
    case isTrue =>
      cases chosen
      exact here
    case isFalse => exact there chosen
  refine choose flat ?_ success
  refine choose flat ?_
  refine choose (mark .openArray trivial) ?_
  refine choose (mark .closeArray trivial) ?_
  refine choose (mark .openObject trivial) ?_
  refine choose (mark .closeObject trivial) ?_
  refine choose (mark .comma trivial) ?_
  refine choose (mark .colon trivial) ?_
  refine choose flat ?_
  refine choose flat ?_
  intro none
  cases none

private theorem flat_close? {before after : List Token} {scan : Scan}
    (flat : ∀ token ∈ before, token.Flat) (success : close? before scan = some after) :
    ∀ token ∈ after, token.Flat := by
  have scalar (value : Json) (plain : value.depth = 0) :
      ∀ other ∈ Token.literal value :: before, other.Flat := by
    simpa using ⟨plain, flat⟩
  cases scan with
  | between =>
    cases success
    exact flat
  | number seen =>
    obtain ⟨value, _, same⟩ := Option.bind_eq_some_iff.mp success
    cases same
    exact scalar _ rfl
  | word seen =>
    rw [close?] at success
    repeat' split at success
    all_goals cases success
    all_goals exact scalar _ rfl
  | string escaping seen => cases success

private theorem flat_step? {state next : Scan × List Token} {c : Char}
    (flat : ∀ token ∈ state.2, token.Flat) (success : step? state c = some next) :
    ∀ token ∈ next.2, token.Flat := by
  obtain ⟨scan, before⟩ := state
  obtain ⟨following, after⟩ := next
  have renewed {scan : Scan}
      (success : (close? before scan >>= fun closed => begin? closed c) = some (following, after)) :
      ∀ token ∈ after, token.Flat := by
    obtain ⟨closed, ends, begun⟩ := Option.bind_eq_some_iff.mp success
    exact flat_begin? (flat_close? flat ends) begun
  cases scan with
  | between => exact flat_begin? flat success
  | number seen =>
    rw [step?] at success
    split at success
    case isTrue =>
      cases success
      exact flat
    case isFalse => exact renewed success
  | word seen =>
    rw [step?] at success
    split at success
    case isTrue =>
      cases success
      exact flat
    case isFalse => exact renewed success
  | string escaping seen =>
    cases escaping with
    | true =>
      cases success
      exact flat
    | false =>
      rw [step?] at success
      split at success
      case isTrue =>
        obtain ⟨text, _, same⟩ := Option.bind_eq_some_iff.mp success
        cases same
        simpa using ⟨trivial, flat⟩
      case isFalse =>
        cases success
        exact flat

theorem flat_ofChars? {text : List Char} {row : List Token} (success : ofChars? text = some row) :
    ∀ token ∈ row, token.Flat := by
  obtain ⟨⟨scan, seen⟩, reached, success⟩ := Option.bind_eq_some_iff.mp success
  obtain ⟨closed, ends, same⟩ := Option.bind_eq_some_iff.mp success
  cases same
  have flat : ∀ token ∈ seen, token.Flat :=
    foldlM_some_invariant (fun _ _ _ _ => flat_step?) (by simp) reached
  intro token member
  exact flat_close? flat ends token (List.mem_reverse.mp member)

end Token

/-- A text that is read denotes a value nested no deeper than the limit. -/
theorem depth_of_readRaw? {text : String} {value : Json} (success : readRaw? limit text = some value) :
    value.depth ≤ limit := by
  obtain ⟨row, cut, success⟩ := Option.bind_eq_some_iff.mp success
  obtain ⟨last, reached, result⟩ := Option.bind_eq_some_iff.mp success
  have initial : (Progress.needValue []).Fits limit := trivial
  have fits : last.Fits limit := foldlM_some_invariant
    (fun _ token _ member => fits_step? (Token.flat_ofChars? cut token member)) initial reached
  cases last with
  | done found =>
    cases result
    exact fits
  | _ => cases result

theorem read?_ordered {text : String} {value : Json} (success : read? text = some value) :
    value.Ordered ∧ value.depth ≤ nestingLimit := by
  obtain ⟨raw, reads, rfl⟩ := Option.map_eq_some_iff.mp success
  obtain ⟨ordered, bounded⟩ := sorted_ordered raw
  exact ⟨ordered, bounded.trans (depth_of_readRaw? reads)⟩

end DocStore.Json
