import TableStore.Cache
import TableStore.Cache.Log
import TableStore.Command
import TableStore.Database
import TableStore.Fault
import TableStore.Json
import TableStore.Json.Decimal
import TableStore.Json.Printer
import TableStore.Json.Reader
import TableStore.Json.Shape
import TableStore.Json.Skip
import TableStore.KeyValue
import TableStore.KeyValue.Cached
import TableStore.KeyValue.Entries
import TableStore.KeyValue.Script
import TableStore.Main
import TableStore.Proofs.Cache.Refusal
import TableStore.Proofs.Cache.Reopening
import TableStore.Proofs.Cache.Replay
import TableStore.Proofs.Cache.Serving
import TableStore.Proofs.Command.Effect
import TableStore.Proofs.Command.Faults
import TableStore.Proofs.Command.Reads
import TableStore.Proofs.Command.Run
import TableStore.Proofs.Command.Supplied
import TableStore.Proofs.Command.WellFormed
import TableStore.Proofs.Database.Calls
import TableStore.Proofs.Database.Disjoint
import TableStore.Proofs.Database.Exclusive
import TableStore.Proofs.Database.Insertion
import TableStore.Proofs.Database.Invariant
import TableStore.Proofs.Database.Reading
import TableStore.Proofs.Database.Rowwise
import TableStore.Proofs.Database.Serial
import TableStore.Proofs.Database.Single
import TableStore.Proofs.Database.WellFormed
import TableStore.Proofs.Json.Nesting
import TableStore.Proofs.Json.Records
import TableStore.Proofs.Json.RoundTrip
import TableStore.Proofs.Json.Scalars
import TableStore.Proofs.KeyValue.Interchange
import TableStore.Proofs.KeyValue.Map
import TableStore.Proofs.KeyValue.Owned
import TableStore.Proofs.KeyValue.ReadingBack
import TableStore.Proofs.KeyValue.Runs
import TableStore.Proofs.KeyValue.Storing
import TableStore.Proofs.KeyValue.Texts
import TableStore.Proofs.KeyValue.Values
import TableStore.Proofs.Outcome
import TableStore.Proofs.Root.Entries
import TableStore.Proofs.Root.Listing
import TableStore.Proofs.Shell.Account
import TableStore.Proofs.Sql.Declared
import TableStore.Proofs.Sql.Grammar
import TableStore.Proofs.Sql.Group
import TableStore.Proofs.Sql.Insertion
import TableStore.Proofs.Sql.Production
import TableStore.Proofs.Sql.Spacing
import TableStore.Proofs.Sql.Spelled
import TableStore.Proofs.Sql.Statement
import TableStore.Proofs.Sql.Tiling
import TableStore.Proofs.Sql.ValueGroup
import TableStore.Proofs.Table.Codec
import TableStore.Proofs.Table.Rows
import TableStore.Proofs.Table.Schema
import TableStore.Proofs.Table.Stored
import TableStore.Proofs.Table.Typed
import TableStore.Proofs.Text.Bytes
import TableStore.Proofs.Text.Fields
import TableStore.Proofs.Text.Hex
import TableStore.Proofs.Text.Lines
import TableStore.Proofs.Text.Runs
import TableStore.Proofs.Transaction.Commit
import TableStore.Proofs.Transaction.Journal
import TableStore.Proofs.Transaction.Slot
import TableStore.Rehearsal
import TableStore.Root
import TableStore.Schema
import TableStore.Settings
import TableStore.Shell.Grid
import TableStore.Shell.Launch
import TableStore.Shell.Path
import TableStore.Shell.Session
import TableStore.Shell.Typed
import TableStore.Shell.Workspace
import TableStore.Sql.Comparison
import TableStore.Sql.Condition
import TableStore.Sql.Grammar
import TableStore.Sql.Statement
import TableStore.Sql.Token
import TableStore.Sql.ValueGroup
import TableStore.Table
import TableStore.Table.Contents
import TableStore.Table.File
import TableStore.Text.Blank
import TableStore.Text.Cluster
import TableStore.Text.Cluster.Kind
import TableStore.Text.Escaped
import TableStore.Text.Hex
import TableStore.Text.Hidden
import TableStore.Text.Numeral
import TableStore.Text.Path
import TableStore.Text.Quoted
import TableStore.Text.Ranges
import TableStore.Text.Separated
import TableStore.Transaction
import TableStore.Proofs.Command.Local
import TableStore.Proofs.Database.Direct
import TableStore.Proofs.KeyValue.Refused
import TableStore.Proofs.Indexed.Outcome
import TableStore.Proofs.Indexed.Scan
import TableStore.Proofs.Indexed.Statement
import TableStore.Proofs.Indexed.Schema
import TableStore.Proofs.Indexed.Contents
import TableStore.Proofs.Indexed.Database
import TableStore.Proofs.Table.Matching
import TableStore.Proofs.Table.Selection
import TableStore.Proofs.Table.Assignment
import TableStore.Proofs.Table.Creation
import TableStore.Proofs.Table.Deletion
import TableStore.Proofs.Json.Naturals
import TableStore.Proofs.Cache.Loading
import TableStore.Proofs.Cache.Persistence
import TableStore.Proofs.Sql.Refusals
import TableStore.Proofs.Shell.Routing
import TableStore.Proofs.Database.Holding
import TableStore.Proofs.Table.Readers
import TableStore.Proofs.Sql.Spans
import TableStore.Proofs.Sql.GroupText
import TableStore.Proofs.Sql.Composition
import TableStore.Proofs.Sql.Condition
import TableStore.Proofs.Sql.Printed
import TableStore.Proofs.Sql.Classified
import TableStore.Proofs.Table.Listed
import TableStore.Proofs.Command.Lossless
import TableStore.Proofs.Sql.Defect
import TableStore.Proofs.Shell.Aligned
