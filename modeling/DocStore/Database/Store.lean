import DocStore.Database.Basic
import DocStore.Database.Codec

namespace DocStore.Database

variable {α κ ν : Type}

def written (codec : Codec α) (value : α) : StoreAction Database String :=
  Action.ofExcept ((codec.encode value).mapError fun reason => .codec (.unwritable reason))

def readable (codec : Codec α) (text : String) : StoreAction Database α :=
  match codec.decode? text with
  | some value => pure value
  | none => throw (.codec .unreadable)

def find (table : String) (keys : Codec κ) (values : Codec ν) (tx : Nat) (key : κ) :
    StoreAction Database (Option ν) := do
  let key ← written keys key
  match ← select table tx key with
  | some text => do
    let value ← readable values text
    pure (some value)
  | none => pure none

def get (table : String) (keys : Codec κ) (values : Codec ν) (tx : Nat) (key : κ) :
    StoreAction Database ν := do
  match ← find table keys values tx key with
  | some value => pure value
  | none => throw .keyNotFound

def add (table : String) (keys : Codec κ) (values : Codec ν) (tx : Nat) (key : κ) (value : ν) :
    StoreAction Database Bool := do
  let key ← written keys key
  let value ← written values value
  insertNew table tx key value

/-- Removes a row and then reads what its value was. -/
def remove (table : String) (keys : Codec κ) (values : Codec ν) (tx : Nat) (key : κ) :
    StoreAction Database (Option ν) := do
  let key ← written keys key
  match ← select table tx key with
  | some text => do
    delete table tx key
    let value ← readable values text
    pure (some value)
  | none => pure none

def getOrAdd (table : String) (keys : Codec κ) (values : Codec ν) (tx : Nat) (key : κ)
    (build : κ → ν) : StoreAction Database ν := do
  match ← find table keys values tx key with
  | some value => pure value
  | none => do
    let value := build key
    let keyText ← written keys key
    let valueText ← written values value
    let _ ← insertNew table tx keyText valueText
    pure value

def addOrUpdate (table : String) (keys : Codec κ) (values : Codec ν) (tx : Nat) (key : κ)
    (value : ν) (update : κ → ν → ν) : StoreAction Database ν := do
  let current ← find table keys values tx key
  let next := match current with
    | some current => update key current
    | none => value
  let keyText ← written keys key
  let valueText ← written values next
  upsert table tx keyText valueText
  pure next

def store (table : String) (keys : Codec κ) (values : Codec ν) : LeafStore Database Nat κ ν where
  begin := begin
  beginRead := beginRead
  get := get table keys values
  find := find table keys values
  add := add table keys values
  remove := remove table keys values
  getOrAdd := getOrAdd table keys values
  addOrUpdate := addOrUpdate table keys values
  keys := do
    let rows ← committedRows table
    rows.keys.mapM (readable keys)
  values := do
    let rows ← committedRows table
    rows.values.mapM (readable values)

end DocStore.Database
