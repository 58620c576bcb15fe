import DocStore.Path
import DocStore.Store.Error

namespace DocStore

inductive QueryError where
  | unsupportedPredicate (reason : String)
  | invalidFilter (reason : String)
  | unknownIndex (name : IndexName)
  | duplicateIndex (name : IndexName)
  | multipleResults (count : Nat)
  /-- A record could not be written to find the value of an indexed field. -/
  | projection (reason : String)
  | store (error : StoreError)
deriving DecidableEq, Repr

def QueryError.message : QueryError → String
  | .unsupportedPredicate reason => "unsupported predicate: " ++ reason
  | .invalidFilter reason => "invalid filter: " ++ reason
  | .unknownIndex name => "no index named `" ++ name.text ++ "`"
  | .duplicateIndex name => "index `" ++ name.text ++ "` is declared more than once"
  | .multipleResults count => "expected at most one record, found " ++ toString count
  | .projection reason => "projection error: " ++ reason
  | .store error => "store error: " ++ error.message

end DocStore
