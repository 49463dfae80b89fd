import DocumentViews.Access
import DocumentViews.Command.Arguments
import DocumentViews.Command.Basic
import DocumentViews.Command.Report
import DocumentViews.Command.Run
import DocumentViews.Config
import DocumentViews.Database.Basic
import DocumentViews.Database.Catalog
import DocumentViews.Database.Connection
import DocumentViews.Database.Settings
import DocumentViews.Failure
import DocumentViews.Json.Escape
import DocumentViews.Json.Record
import DocumentViews.Json.Syntax
import DocumentViews.Json.Value
import DocumentViews.Json.Writer
import DocumentViews.Main
import DocumentViews.NameMap
import DocumentViews.Number.Binary64
import DocumentViews.Number.Layout
import DocumentViews.Number.Numeral
import DocumentViews.Number.Shortest
import DocumentViews.Program
import DocumentViews.Proofs.Json.Escape
import DocumentViews.Proofs.Json.Text
import DocumentViews.Proofs.NameMap
import DocumentViews.Proofs.Resolution.Chains
import DocumentViews.Proofs.Resolution.Step
import DocumentViews.Proofs.Resolution.Termination
import DocumentViews.Proofs.Resolution.Visited
import DocumentViews.Proofs.Sql.Compile
import DocumentViews.Proofs.Sql.Lexer
import DocumentViews.Proofs.Sql.NestedMaps
import DocumentViews.Proofs.Sql.Quoting
import DocumentViews.Proofs.Sql.Scopes
import DocumentViews.Proofs.Text.Quoted
import DocumentViews.Resolution.Policy
import DocumentViews.Resolution.Resolve
import DocumentViews.Resolution.Trail
import DocumentViews.Resolution.Walk
import DocumentViews.Schema.Classifier
import DocumentViews.Schema.Format
import DocumentViews.Schema.Snapshot
import DocumentViews.Shape.Basic
import DocumentViews.Sql.Name
import DocumentViews.Sql.Routine
import DocumentViews.Sql.Select
import DocumentViews.Sql.Token
import DocumentViews.Text.Blank
import DocumentViews.Text.Clip
import DocumentViews.Text.Digit
import DocumentViews.Text.Quoted
import DocumentViews.Text.Search
import DocumentViews.Text.Word
import DocumentViews.Toon
import DocumentViews.View.Lifecycle
import DocumentViews.View.Reading
import DocumentViews.Proofs.Resolution.Identifiers
import DocumentViews.Proofs.Database.ViewStore
import DocumentViews.Proofs.View.Triples
import DocumentViews.Proofs.View.Outcomes
import DocumentViews.Proofs.Command.Stages
import DocumentViews.Proofs.Command.Sessions
import DocumentViews.Proofs.Resolution.Narrowing
import DocumentViews.Proofs.Resolution.Depth
import DocumentViews.Proofs.Resolution.Exclusion
import DocumentViews.Proofs.Command.Watched
import DocumentViews.Proofs.Command.Denial
import DocumentViews.Proofs.Sql.Readability
import DocumentViews.Proofs.Json.Record
import DocumentViews.Proofs.Formats
import DocumentViews.Proofs.Command.DryRun
import DocumentViews.Proofs.Sql.Routing
import DocumentViews.Proofs.Resolution.Routing
import DocumentViews.Proofs.Resolution.Columns
import DocumentViews.Proofs.Resolution.Missing
import DocumentViews.Proofs.Resolution.Keys
import DocumentViews.Proofs.View.Interruption
import DocumentViews.Proofs.Sql.RowCalls
import DocumentViews.Proofs.Resolution.WholeRows
import DocumentViews.Proofs.View.ReadText
import DocumentViews.Proofs.View.Requests
import DocumentViews.Proofs.Command.CreateRead
import DocumentViews.Proofs.Sql.Growth
import DocumentViews.Proofs.Database.Settings
import DocumentViews.Proofs.Resolution.Reordering
import DocumentViews.Proofs.Resolution.Remarks
import DocumentViews.Proofs.Sql.SelectList
import DocumentViews.Proofs.Command.Reported
import DocumentViews.Proofs.Failure
import DocumentViews.Proofs.Sql.Names
import DocumentViews.Proofs.Shape.Paths
import DocumentViews.Proofs.Command.Options
import DocumentViews.Proofs.Command.CommandLines
