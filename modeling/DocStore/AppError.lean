import DocStore.Collection.Stored

namespace DocStore

inductive AppError where
  | config (reason : String)
  /-- A file whose bytes are not a text. -/
  | unreadableFile
  | malformedSettings
  | malformedJson
  | invalidDocument (reason : String)
  | database (error : DatabaseError)
  | query (error : QueryError)
  | store (error : StoreError)
deriving DecidableEq, Repr

def AppError.message : AppError → String
  | .config reason => "Config error: " ++ reason
  | .unreadableFile => "I/O error: stream did not contain valid UTF-8"
  | .malformedSettings => "settings error: the settings file cannot be read"
  | .malformedJson => "JSON error: the text is not a JSON value"
  | .invalidDocument reason => "invalid document: " ++ reason
  | .database error => "SQLite error: " ++ error.message
  | .query error => "query error: " ++ error.message
  | .store error => "store error: " ++ error.message

def AppError.ofOpen : OpenError → AppError
  | .database error => .database error
  | .query error => .query error

end DocStore
