import DocStore.Collection.InMemory
import DocStore.CommandLine.Sandbox
import DocStore.Main
import DocStore.Record.Numbered
import DocStore.Record.Person
import DocStore.Proofs.Catalog.Basic
import DocStore.Proofs.Catalog.Reflects
import DocStore.Proofs.Collection.Update
import DocStore.Proofs.Path
import DocStore.Proofs.Query.Meaning
import DocStore.Proofs.Catalog.Answer
import DocStore.Proofs.Collection.Search
import DocStore.Proofs.Collection.Session
import DocStore.Proofs.Collection.Memory
import DocStore.Proofs.Number.Literal
import DocStore.Proofs.Json.Scan
import DocStore.Proofs.Json.Read
import DocStore.Proofs.Database.Codec
import DocStore.Proofs.Database.Tables
import DocStore.Proofs.Collection.Stored
import DocStore.Proofs.Collection.Transactional
import DocStore.Proofs.Document
import DocStore.Proofs.Query.Parse
import DocStore.Proofs.Query.Filter
import DocStore.Proofs.Collection.Idle
import DocStore.Proofs.CommandLine.Reference
import DocStore.Proofs.CommandLine.Search
import DocStore.Proofs.CommandLine.Execute
import DocStore.Proofs.Database.Rows
import DocStore.Proofs.Collection.Atomic
import DocStore.Proofs.Collection.Apart
import DocStore.Proofs.Store.Request
import DocStore.Proofs.Store.Watched
import DocStore.Proofs.Collection.Conduct
import DocStore.Proofs.Collection.Orderly
import DocStore.Proofs.Database.Confined
import DocStore.Proofs.Database.Schedule
import DocStore.Proofs.Database.Serial
import DocStore.Proofs.Database.Isolation
import DocStore.Proofs.Catalog.Extent
import DocStore.Proofs.Collection.Turns
import DocStore.Proofs.Collection.Interleaving
import DocStore.Proofs.Query.Truth
import DocStore.Proofs.Query.Grammar
import DocStore.Proofs.Query.Answerable
import DocStore.Proofs.Collection.Refused
import DocStore.Proofs.Collection.Neighbours
import DocStore.Proofs.Collection.Plans
import DocStore.Proofs.Database.Mirror
import DocStore.Proofs.Database.Failure
import DocStore.Proofs.Document.Identity
import DocStore.Proofs.Query.Reading
import DocStore.Proofs.Collection.Lookups
import DocStore.Proofs.Collection.Reads
import DocStore.Proofs.Collection.Opening
import DocStore.Proofs.Collection.Naming
import DocStore.Proofs.Json.Nesting
import DocStore.Proofs.Document.Stored
import DocStore.Proofs.Number.Double
import DocStore.Proofs.IndexValue
import DocStore.Proofs.Except
import DocStore.Proofs.IdSet
