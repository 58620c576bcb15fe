import DocStore.Store.Leaf

namespace DocStore

/-- A call on single keys of a leaf store. -/
inductive Request (κ ν : Type) where
  | get (key : κ)
  | find (key : κ)
  | add (key : κ) (value : ν)
  | remove (key : κ)
  | getOrAdd (key : κ) (build : κ → ν)
  | addOrUpdate (key : κ) (first : ν) (update : κ → ν → ν)

inductive Reply (ν : Type) where
  /-- The value that was read, built or stored. -/
  | value (value : ν)
  /-- The value that was looked up or removed, if there was one. -/
  | found (value : Option ν)
  | added (added : Bool)
deriving DecidableEq, Repr

variable {σ τ κ ν : Type}

/-- Puts a request to a store inside a transaction. -/
def LeafStore.answer (store : LeafStore σ τ κ ν) (tx : τ) : Request κ ν → StoreAction σ (Reply ν)
  | .get key => Reply.value <$> store.get tx key
  | .find key => Reply.found <$> store.find tx key
  | .add key value => Reply.added <$> store.add tx key value
  | .remove key => Reply.found <$> store.remove tx key
  | .getOrAdd key build => Reply.value <$> store.getOrAdd tx key build
  | .addOrUpdate key first update => Reply.value <$> store.addOrUpdate tx key first update

/-- Acts on some items in turn; gives what came of each. -/
def series {γ ο : Type} (act : γ → σ → ο × σ) : List γ → σ → List ο × σ
  | [], world => ([], world)
  | item :: rest, world =>
    let (outcome, next) := act item world
    let (outcomes, last) := series act rest next
    (outcome :: outcomes, last)

theorem series_cons {γ ο : Type} {act : γ → σ → ο × σ} {item : γ} {world next : σ} {outcome : ο}
    (acted : act item world = (outcome, next)) (rest : List γ) :
    series act (item :: rest) world =
      (outcome :: (series act rest next).1, (series act rest next).2) := by
  rw [series, acted]

def LeafStore.answers (store : LeafStore σ τ κ ν) (tx : τ) :
    List (Request κ ν) → σ → List (Except StoreError (Reply ν)) × σ :=
  series (store.answer tx)

theorem LeafStore.answers_cons {store : LeafStore σ τ κ ν} {tx : τ} {request : Request κ ν}
    {world next : σ} {outcome : Except StoreError (Reply ν)}
    (answered : store.answer tx request world = (outcome, next)) (rest : List (Request κ ν)) :
    store.answers tx (request :: rest) world =
      (outcome :: (store.answers tx rest next).1, (store.answers tx rest next).2) :=
  series_cons answered rest

end DocStore
