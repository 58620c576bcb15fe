import DocStore.Store.Leaf
import DocStore.Table

/-! A transactional database of text tables. One transaction at a time holds the write lock; the others
read a committed state that stays fixed from their first read on. Committing publishes the writes of
a transaction together, every other end discards them. -/
namespace DocStore

/-- One table: key texts and value texts. -/
abbrev Rows := Table String String

/-- All tables by their folded names. -/
abbrev Contents := Table String Rows

/-- A state of all tables, and the number of commits that led to it. -/
structure Snapshot where
  contents : Contents
  version : Nat

structure OpenTransaction where
  /-- What the transaction sees; nothing is fixed before its first statement. -/
  view : Option Snapshot
  /-- Whether it holds the write lock. -/
  writing : Bool
  /-- Whether its view differs from the snapshot it was made from. -/
  changed : Bool

/-- Transactions are numbered from 1 in the order they begin. -/
structure Database where
  committed : Snapshot
  opened : Table Nat OpenTransaction
  next : Nat

namespace Database

def empty : Database := ⟨⟨.empty, 0⟩, .empty, 1⟩

/-- The longest time in milliseconds for which a connection can wait for the write lock. -/
def longestWait : Nat := 0x7fffffff

def checkWait (milliseconds : Nat) : Except DatabaseError Unit :=
  if milliseconds ≤ longestWait then .ok () else .error (.connect .cannotOpen)

/-- Table names are told apart without regard to the case of ASCII letters. -/
def foldName (name : String) : String := name.toLower

/-- Names that the engine keeps for itself. -/
def isReserved (name : String) : Bool := "sqlite_".toList.isPrefixOf (foldName name).toList

def isLocked (db : Database) : Bool := db.opened.values.any OpenTransaction.writing

/-- What a transaction sees, or would see if it looked now. -/
def viewOf (db : Database) (tx : OpenTransaction) : Snapshot := tx.view.getD db.committed

def refuse {α : Type} (refusal : Refusal) : StoreAction Database α :=
  throw (.ofDatabase (.execute refusal))

def enter (tx : OpenTransaction) : StoreAction Database Nat := fun db =>
  (.ok db.next, { db with opened := db.opened.put db.next tx, next := db.next + 1 })

/-- Opens a transaction that holds the write lock from the start. -/
def begin : StoreAction Database Nat := fun db =>
  if db.isLocked then refuse .locked db else enter ⟨some db.committed, true, false⟩ db

/-- Opens a transaction whose view is fixed by its first statement. -/
def beginRead : StoreAction Database Nat := enter ⟨none, false, false⟩

/-- Publishes the writes of a transaction and ends it. A transaction that changed nothing leaves the
last commit as it is. -/
def commit (tx : Nat) : StoreAction Database Unit := fun db =>
  match db.opened.get? tx with
  | none => (.error (.transactionClosed tx), db)
  | some state =>
    let opened := db.opened.erase tx
    match state.changed, state.view with
    | true, some view =>
      (.ok (), { db with opened, committed := ⟨view.contents, db.committed.version + 1⟩ })
    | _, _ => (.ok (), { db with opened })

def abort (tx : Nat) : StoreAction Database Unit := fun db =>
  match db.opened.get? tx with
  | none => (.error (.transactionClosed tx), db)
  | some _ => (.ok (), { db with opened := db.opened.erase tx })

def release (tx : Nat) (db : Database) : Database := { db with opened := db.opened.erase tx }

def transactions : Transactions Database Nat where
  id := id
  commit := commit
  abort := abort
  release := release

def select (table : String) (tx : Nat) (key : String) : StoreAction Database (Option String) :=
  fun db =>
    match db.opened.get? tx with
    | none => (.error (.transactionClosed tx), db)
    | some state =>
      let view := db.viewOf state
      match view.contents.get? (foldName table) with
      | none => refuse (.missingTable table) db
      | some rows =>
        (.ok (rows.get? key), { db with opened := db.opened.put tx { state with view := some view } })

/-- Changes a table inside a transaction; `change` gives an answer and the new rows, if they differ.
The transaction holds the write lock afterwards. It can take the lock only while it is free and
nothing was committed since the snapshot of the transaction. -/
def modify {α : Type} (table : String) (tx : Nat) (change : Rows → α × Option Rows) :
    StoreAction Database α := fun db =>
  match db.opened.get? tx with
  | none => (.error (.transactionClosed tx), db)
  | some state =>
    let view := db.viewOf state
    match view.contents.get? (foldName table) with
    | none => refuse (.missingTable table) db
    | some rows =>
      if !state.writing && db.isLocked then refuse .locked db
      else if !state.writing && view.version != db.committed.version then refuse .stale db
      else
        let (answer, rows) := change rows
        let next : OpenTransaction := match rows with
          | none => ⟨some view, true, state.changed⟩
          | some rows =>
            let contents := view.contents.put (foldName table) rows
            ⟨some { view with contents }, true, true⟩
        (.ok answer, { db with opened := db.opened.put tx next })

/-- Adds a row unless its key is present; whether it was added. -/
def insertNew (table : String) (tx : Nat) (key value : String) : StoreAction Database Bool :=
  modify table tx fun rows =>
    if rows.contains key then (false, none) else (true, some (rows.put key value))

def upsert (table : String) (tx : Nat) (key value : String) : StoreAction Database Unit :=
  modify table tx fun rows =>
    if rows.get? key = some value then ((), none) else ((), some (rows.put key value))

def delete (table : String) (tx : Nat) (key : String) : StoreAction Database Unit :=
  modify table tx fun rows =>
    if rows.contains key then ((), some (rows.erase key)) else ((), none)

/-- All rows of a table in the last commit. -/
def committedRows (table : String) : StoreAction Database Rows := fun db =>
  match db.committed.contents.get? (foldName table) with
  | none => refuse (.missingTable table) db
  | some rows => (.ok rows, db)

def publish (contents : Contents) (db : Database) : Database :=
  { db with committed := ⟨contents, db.committed.version + 1⟩ }

def openTable (table : String) : Action DatabaseError Database Unit := fun db =>
  if table.toList.contains '\x00' then (.error (.setup (.malformedName table)), db)
  else if isReserved table then (.error (.setup (.reservedName table)), db)
  else if (db.committed.contents.get? (foldName table)).isSome then (.ok (), db)
  else if db.isLocked then (.error (.setup .locked), db)
  else (.ok (), publish (db.committed.contents.put (foldName table) .empty) db)

def dropTable (table : String) : Action DatabaseError Database Unit := fun db =>
  if (db.committed.contents.get? (foldName table)).isNone then
    (.error (.execute (.missingTable table)), db)
  else if db.isLocked then (.error (.execute .locked), db)
  else (.ok (), publish (db.committed.contents.erase (foldName table)) db)

end Database

end DocStore
