import DocStore.Collection.Basic
import DocStore.Query.Compile
import DocStore.Query.Filter

/-! Finding records. A query is compiled to a plan and the plan is run on the indexes; each lookup
reads in a transaction of its own, and the found records are never compared with the query again. -/
namespace DocStore.Collection

variable {σ τ α ι : Type}

def getById (collection : Collection σ τ α ι) (id : ι) : QueryAction σ (Option α) :=
  collection.transactions.within .store collection.records.beginRead fun tx =>
    (collection.records.find tx id).mapError .store

/-- The records that the primary store has for some ids; ids without a record are left out. -/
def fetch (collection : Collection σ τ α ι) (tx : τ) : List ι → QueryAction σ (List α)
  | [] => pure []
  | id :: rest => do
    let found ← (collection.records.find tx id).mapError .store
    let others ← fetch collection tx rest
    pure (found.toList ++ others)

def searchByIndex (collection : Collection σ τ α ι) (name : IndexName) (value : IndexValue) :
    QueryAction σ (List α) := do
  let store ← Action.ofExcept (collection.index name)
  collection.transactions.within .store collection.records.beginRead fun tx => do
    let entry ← (store.find tx value).mapError .store
    collection.fetch tx (entry.getD .empty).ids

variable [DecidableEq ι] [Record α ι]

/-- The records of the left side whose ids occur on the right side. -/
def intersect (left right : List α) : List α :=
  left.filter fun record => decide (Record.id record ∈ right.map Record.id)

/-- The records whose ids were not seen before, the first of each id. -/
def firstOfEach (seen : List ι) : List α → List α
  | [] => []
  | record :: rest =>
    if Record.id record ∈ seen then firstOfEach seen rest
    else record :: firstOfEach (Record.id record :: seen) rest

def union (left right : List α) : List α := firstOfEach [] (left ++ right)

/-- Runs a plan from left to right, up to the first failure. -/
def run (collection : Collection σ τ α ι) : Operation ι → QueryAction σ (List α)
  | .byId id => do
    let found ← collection.getById id
    pure found.toList
  | .byField name value => collection.searchByIndex name value
  | .both left right => do
    let left ← run collection left
    let right ← run collection right
    pure (intersect left right)
  | .either left right => do
    let left ← run collection left
    let right ← run collection right
    pure (union left right)

/-- The leftmost index a plan needs that does not exist. -/
def missingIndex? (collection : Collection σ τ α ι) (operation : Operation ι) : Option IndexName :=
  operation.indexNames.find? fun name => (collection.indexes.get? name).isNone

/-- Runs a plan. Where all lookups start together, a missing index shows before any of them is
over. -/
def execute (collection : Collection σ τ α ι) (operation : Operation ι) : QueryAction σ (List α) :=
  match collection.lookups with
  | .inTurn => collection.run operation
  | .together =>
    match collection.missingIndex? operation with
    | some name => throw (.unknownIndex name)
    | none => collection.run operation

variable [Identifier ι]

def plan (_ : Collection σ τ α ι) (scope : Scope) (expr : Expr) : Except QueryError (Operation ι) :=
  ((expr.compile (Record.idMember α) scope).run []).1.mapError
    fun cause => .unsupportedPredicate cause.message

def find (collection : Collection σ τ α ι) (scope : Scope) (expr : Expr) : QueryAction σ (List α) := do
  let operation ← Action.ofExcept (collection.plan scope expr)
  collection.execute operation

def filterExpr (filter : Json) : Except QueryError Expr :=
  (Filter.parse filter).mapError fun cause => .invalidFilter cause.message

def findFilter (collection : Collection σ τ α ι) (filter : Json) : QueryAction σ (List α) := do
  let expr ← Action.ofExcept (filterExpr filter)
  collection.find .empty expr

/-- The only record that satisfies an expression, if any does. -/
def findOne (collection : Collection σ τ α ι) (scope : Scope) (expr : Expr) :
    QueryAction σ (Option α) := do
  match ← collection.find scope expr with
  | [] => pure none
  | [record] => pure (some record)
  | records => throw (.multipleResults records.length)

end DocStore.Collection
