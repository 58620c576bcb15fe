import DocStore.Store.Leaf
import DocStore.Table

namespace DocStore

/-- A part `α` of a world `σ`. -/
structure Part (σ α : Type) where
  get : σ → α
  set : α → σ → σ

def Part.whole {σ : Type} : Part σ σ := ⟨id, fun inner _ => inner⟩

namespace Memory

variable {σ κ ν : Type}

def transactions : Transactions σ Unit where
  id _ := 0
  commit _ := pure ()
  abort _ := pure ()
  release _ := id

variable [DecidableEq κ]

def store (part : Part σ (Table κ ν)) : LeafStore σ Unit κ ν where
  begin := pure ()
  beginRead := pure ()
  get _ key := fun world =>
    match (part.get world).get? key with
    | some value => (.ok value, world)
    | none => (.error .keyNotFound, world)
  find _ key := fun world => (.ok ((part.get world).get? key), world)
  add _ key value := fun world =>
    if (part.get world).contains key then (.ok false, world)
    else (.ok true, part.set ((part.get world).put key value) world)
  remove _ key := fun world =>
    (.ok ((part.get world).get? key), part.set ((part.get world).erase key) world)
  getOrAdd _ key build := fun world =>
    match (part.get world).get? key with
    | some value => (.ok value, world)
    | none => (.ok (build key), part.set ((part.get world).put key (build key)) world)
  addOrUpdate _ key value update := fun world =>
    let next := match (part.get world).get? key with
      | some current => update key current
      | none => value
    (.ok next, part.set ((part.get world).put key next) world)
  keys := fun world => (.ok (part.get world).keys, world)
  values := fun world => (.ok (part.get world).values, world)

end Memory

end DocStore
