import FrameQuery.Calendar
import FrameQuery.Error
import FrameQuery.Expr.Basic
import FrameQuery.Expr.Decoding
import FrameQuery.Expr.Pure
import FrameQuery.Expr.Row
import FrameQuery.Expr.Sql
import FrameQuery.Expr.Typed
import FrameQuery.Expr.Window
import FrameQuery.Frame.Basic
import FrameQuery.Frame.Column
import FrameQuery.Frame.Emission
import FrameQuery.Frame.Execution
import FrameQuery.Frame.Pure
import FrameQuery.Frame.Schema
import FrameQuery.Frame.Sql
import FrameQuery.Frame.Transformation
import FrameQuery.Json.Decoding
import FrameQuery.Json.Reader
import FrameQuery.Json.Value
import FrameQuery.Json.Writer
import FrameQuery.Named
import FrameQuery.Number.Double
import FrameQuery.Number.Reading
import FrameQuery.Number.Shortest
import FrameQuery.Proofs.Expr.Brackets
import FrameQuery.Proofs.Expr.Built
import FrameQuery.Proofs.Expr.Comments
import FrameQuery.Proofs.Expr.FrameClauses
import FrameQuery.Proofs.Expr.Indentation
import FrameQuery.Proofs.Expr.Layout
import FrameQuery.Proofs.Expr.Patterns
import FrameQuery.Proofs.Expr.Phrases
import FrameQuery.Proofs.Expr.Presence
import FrameQuery.Proofs.Expr.ReadingBack
import FrameQuery.Proofs.Expr.Reads
import FrameQuery.Proofs.Expr.Receivers
import FrameQuery.Proofs.Expr.Relabeling
import FrameQuery.Proofs.Expr.Rendering
import FrameQuery.Proofs.Expr.Terms
import FrameQuery.Proofs.Expr.Texts
import FrameQuery.Proofs.Expr.WindowFrames
import FrameQuery.Proofs.Expr.WindowFunctions
import FrameQuery.Proofs.Expr.Written
import FrameQuery.Proofs.Frame.Assembly
import FrameQuery.Proofs.Frame.Brackets
import FrameQuery.Proofs.Frame.Closed
import FrameQuery.Proofs.Frame.ColumnNames
import FrameQuery.Proofs.Frame.Comments
import FrameQuery.Proofs.Frame.ConstantKeys
import FrameQuery.Proofs.Frame.DialectIndependence
import FrameQuery.Proofs.Frame.Faults
import FrameQuery.Proofs.Frame.Graph
import FrameQuery.Proofs.Frame.Identities
import FrameQuery.Proofs.Frame.Indentation
import FrameQuery.Proofs.Frame.InverseRenaming
import FrameQuery.Proofs.Frame.Layout
import FrameQuery.Proofs.Frame.Nesting
import FrameQuery.Proofs.Frame.Reachable
import FrameQuery.Proofs.Frame.Renaming
import FrameQuery.Proofs.Frame.Retaining
import FrameQuery.Proofs.Frame.SchemaColumns
import FrameQuery.Proofs.Frame.SchemaDocuments
import FrameQuery.Proofs.Frame.SchemaLists
import FrameQuery.Proofs.Frame.SelectList
import FrameQuery.Proofs.Frame.Selections
import FrameQuery.Proofs.Frame.Steps
import FrameQuery.Proofs.Frame.StrayWindows
import FrameQuery.Proofs.Frame.Success
import FrameQuery.Proofs.Frame.WindowCalls
import FrameQuery.Proofs.Frame.WindowPlacement
import FrameQuery.Proofs.Json.Members
import FrameQuery.Proofs.Number.Numerals
import FrameQuery.Proofs.Number.Reading
import FrameQuery.Proofs.Number.Texts
import FrameQuery.Proofs.Outcome
import FrameQuery.Proofs.Pure.Documents
import FrameQuery.Proofs.Pure.Reading
import FrameQuery.Proofs.Pure.Terms
import FrameQuery.Proofs.Pure.Tokens
import FrameQuery.Proofs.Rows.Aggregates
import FrameQuery.Proofs.Rows.Arrangement
import FrameQuery.Proofs.Rows.Blocks
import FrameQuery.Proofs.Rows.Concatenating
import FrameQuery.Proofs.Rows.Conditions
import FrameQuery.Proofs.Rows.Distinct
import FrameQuery.Proofs.Rows.Evaluation
import FrameQuery.Proofs.Rows.Extending
import FrameQuery.Proofs.Rows.Fields
import FrameQuery.Proofs.Rows.Filtering
import FrameQuery.Proofs.Rows.Grouping
import FrameQuery.Proofs.Rows.Groups
import FrameQuery.Proofs.Rows.Joining
import FrameQuery.Proofs.Rows.Mapping
import FrameQuery.Proofs.Rows.Paging
import FrameQuery.Proofs.Rows.Queries
import FrameQuery.Proofs.Rows.Ranges
import FrameQuery.Proofs.Rows.Selecting
import FrameQuery.Proofs.Rows.Subqueries
import FrameQuery.Proofs.Rows.Validity
import FrameQuery.Proofs.Rows.Windowing
import FrameQuery.Proofs.Rows.Wrapping
import FrameQuery.Proofs.Sql.Binding
import FrameQuery.Proofs.Sql.BlockComments
import FrameQuery.Proofs.Sql.Comments
import FrameQuery.Proofs.Sql.Faithful
import FrameQuery.Proofs.Sql.Indentation
import FrameQuery.Proofs.Sql.Labels
import FrameQuery.Proofs.Sql.Layout
import FrameQuery.Proofs.Sql.Pagination
import FrameQuery.Proofs.Sql.Phrases
import FrameQuery.Proofs.Sql.Precedence
import FrameQuery.Proofs.Sql.ReadingBack
import FrameQuery.Proofs.Sql.Registry
import FrameQuery.Proofs.Sql.Relabeling
import FrameQuery.Proofs.Sql.Rendering
import FrameQuery.Proofs.Sql.Stated
import FrameQuery.Proofs.Sql.Terms
import FrameQuery.Proofs.Sql.Traversal
import FrameQuery.Proofs.Text.Blank
import FrameQuery.Proofs.Text.Brackets
import FrameQuery.Proofs.Text.Comments
import FrameQuery.Proofs.Text.Documents
import FrameQuery.Proofs.Text.Indentation
import FrameQuery.Proofs.Text.Layout
import FrameQuery.Proofs.Text.Occurrences
import FrameQuery.Proofs.Text.OuterParens
import FrameQuery.Proofs.Text.Quoting
import FrameQuery.Proofs.Text.Tokens
import FrameQuery.Proofs.Text.Unquoting
import FrameQuery.Proofs.Types.Spelling
import FrameQuery.Sql.Clause
import FrameQuery.Sql.Decoding
import FrameQuery.Sql.Dialect
import FrameQuery.Sql.Generator
import FrameQuery.Sql.Metamodel
import FrameQuery.Sql.Rendering
import FrameQuery.Sql.SubQuery
import FrameQuery.Sql.Tree
import FrameQuery.Sql.Vocabulary
import FrameQuery.Text.Blank
import FrameQuery.Text.CodePoints
import FrameQuery.Text.Doc
import FrameQuery.Text.Identifier
import FrameQuery.Text.Parens
import FrameQuery.Text.Quoted
import FrameQuery.Text.Shown
import FrameQuery.Text.Utf8
import FrameQuery.Types.Precise
import FrameQuery.Types.Primitive
import FrameQuery.Types.Reading
