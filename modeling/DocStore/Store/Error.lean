namespace DocStore

inductive Refusal where
  | reservedName (table : String)
  | missingTable (table : String)
  | malformedName (table : String)
  /-- Another transaction holds the write lock. -/
  | locked
  /-- The snapshot a write would build on is no longer the last commit. -/
  | stale
  /-- A write to a database that is only read. -/
  | readOnly
  | cannotOpen
  | notDatabase
deriving DecidableEq, Repr

def Refusal.message : Refusal → String
  | .reservedName table => "(code: 1) object name reserved for internal use: " ++ table
  | .missingTable table => "(code: 1) no such table: " ++ table
  | .malformedName table => "(code: 1) unrecognized token: \"\"" ++ table ++ "\""
  | .locked => "(code: 5) database is locked"
  | .stale => "(code: 517) database is locked"
  | .readOnly => "(code: 8) attempt to write a readonly database"
  | .cannotOpen => "(code: 14) unable to open database file"
  | .notDatabase => "(code: 26) file is not a database"

inductive DatabaseError where
  | connect (refusal : Refusal)
  | setup (refusal : Refusal)
  | execute (refusal : Refusal)
deriving DecidableEq, Repr

def DatabaseError.message : DatabaseError → String
  | .connect refusal => "Connection failed: error returned from database: " ++ refusal.message
  | .setup refusal => "Setup failed: error returned from database: " ++ refusal.message
  | .execute refusal => "SQL execution failed: error returned from database: " ++ refusal.message

inductive BackendError where
  | database (error : DatabaseError)
  | other (message : String)
deriving DecidableEq, Repr

def BackendError.message : BackendError → String
  | .database error => error.message
  | .other message => message

inductive CodecError where
  | unwritable (reason : String)
  | unreadable
deriving DecidableEq, Repr

def CodecError.message : CodecError → String
  | .unwritable reason => reason
  | .unreadable => "stored text is not of the expected type"

inductive StoreError where
  | keyNotFound
  | transactionClosed (id : Nat)
  | codec (error : CodecError)
  | backend (error : BackendError)
deriving DecidableEq, Repr

namespace StoreError

def message : StoreError → String
  | .keyNotFound => "key not found"
  | .transactionClosed id => "transaction " ++ toString id ++ " is already finished"
  | .codec error => "codec error: " ++ error.message
  | .backend error => "backend error: " ++ error.message

def isKeyNotFound (error : StoreError) : Bool := error == .keyNotFound

def ofDatabase (error : DatabaseError) : StoreError := .backend (.database error)

end StoreError

end DocStore
