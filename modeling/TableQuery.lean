import TableQuery.Answer
import TableQuery.Binary64.Basic
import TableQuery.Binary64.Difference
import TableQuery.Binary64.Digits
import TableQuery.Binary64.Power
import TableQuery.Binary64.Reader
import TableQuery.Binary64.Rounding
import TableQuery.Calendar.Date
import TableQuery.Calendar.Iso
import TableQuery.Calendar.Layout
import TableQuery.Calendar.TimeOfDay
import TableQuery.Calendar.Timestamp
import TableQuery.CommandLine.Arguments
import TableQuery.CommandLine.Load
import TableQuery.CommandLine.Outcome
import TableQuery.CommandLine.Query
import TableQuery.Config
import TableQuery.Csv
import TableQuery.Database.Basic
import TableQuery.Database.Evaluate
import TableQuery.Database.Load
import TableQuery.Database.Plan
import TableQuery.Database.Reader
import TableQuery.Database.Type
import TableQuery.Datum
import TableQuery.Deadline
import TableQuery.Decimal
import TableQuery.Engine
import TableQuery.Export
import TableQuery.Expression.Filter
import TableQuery.Expression.Order
import TableQuery.Failure
import TableQuery.Fault
import TableQuery.Json.Basic
import TableQuery.Json.Printer
import TableQuery.Json.Reader
import TableQuery.Main
import TableQuery.Native
import TableQuery.Relational
import TableQuery.Report.Basic
import TableQuery.Report.Column
import TableQuery.Request.Basic
import TableQuery.Request.IntegerText
import TableQuery.Request.JoinText
import TableQuery.Request.Validation
import TableQuery.ResultSet
import TableQuery.ResultSet.Json
import TableQuery.Row
import TableQuery.Rows.Join
import TableQuery.Rows.Order
import TableQuery.Rows.Select
import TableQuery.Service
import TableQuery.Settings
import TableQuery.Sheet.Basic
import TableQuery.Sheet.Book
import TableQuery.Sheet.Cell
import TableQuery.Sheet.TableName
import TableQuery.Sheet.Title
import TableQuery.Sheet.UsedRange
import TableQuery.Slice
import TableQuery.Sorting
import TableQuery.Sql.Compile
import TableQuery.Sql.Identifier
import TableQuery.Sql.Lexeme
import TableQuery.Sql.Select
import TableQuery.Sql.Statement
import TableQuery.Sql.Verbatim
import TableQuery.Storage.DatabaseFile
import TableQuery.Storage.Document
import TableQuery.Storage.Files
import TableQuery.Storage.Path
import TableQuery.Storage.WorkbookFile
import TableQuery.Tabular
import TableQuery.Text.Blank
import TableQuery.Text.CaseTables
import TableQuery.Text.CasedTable
import TableQuery.Text.Casing
import TableQuery.Text.Digit
import TableQuery.Text.HiddenTable
import TableQuery.Text.Quoted
import TableQuery.Text.Split
import TableQuery.Value.Basic
import TableQuery.Value.Order
import TableQuery.Value.SortKey
import TableQuery.Web.Header
import TableQuery.Web.Message
import TableQuery.Web.Receive
import TableQuery.Web.Server
import TableQuery.Workbook
import TableQuery.Proofs.Sorting.Insertion
import TableQuery.Proofs.Sorting.Stable
import TableQuery.Proofs.Binary64.Order
import TableQuery.Proofs.Value.Order
import TableQuery.Proofs.Rows.Order
import TableQuery.Proofs.Rows.Join
import TableQuery.Proofs.Reading
import TableQuery.Proofs.Text.Split
import TableQuery.Proofs.Sql.Token
import TableQuery.Proofs.Sql.Rendering
import TableQuery.Proofs.Sql.Reading
import TableQuery.Proofs.Sql.Quoting
import TableQuery.Proofs.Sql.Clauses
import TableQuery.Proofs.Sql.Acceptance
import TableQuery.Proofs.Sql.Decoding
import TableQuery.Proofs.Sql.Name
import TableQuery.Proofs.Sql.Lexing
import TableQuery.Proofs.Sql.Meaning
import TableQuery.Proofs.Links
import TableQuery.Proofs.Row.Merge
import TableQuery.Proofs.Database.Binding
import TableQuery.Proofs.Database.Join
import TableQuery.Proofs.Database.Reading
import TableQuery.Proofs.Tabular.Join
import TableQuery.Proofs.Engine.Join
import TableQuery.Proofs.Engine.Overwriting
import TableQuery.Proofs.Engine.Stores
import TableQuery.Proofs.Sheet.Texts
import TableQuery.Proofs.Storage.Export
import TableQuery.Proofs.Workbook.Replacing
import TableQuery.Proofs.Storage.Staging
import TableQuery.Proofs.Storage.Steps
import TableQuery.Proofs.Storage.Runs
import TableQuery.Proofs.Row.Columns
import TableQuery.Proofs.Rows.Uniform
import TableQuery.Proofs.Sheet.Writing
import TableQuery.Proofs.Sheet.Markup
import TableQuery.Proofs.Sheet.Loading
import TableQuery.Proofs.Tabular.Uniform
import TableQuery.Proofs.Text.Casing
import TableQuery.Proofs.Storage.RoundTrip
import TableQuery.Proofs.Calendar.IsoText
import TableQuery.Proofs.Calendar.Ordinal
import TableQuery.Proofs.Value.Mixed
import TableQuery.Proofs.Value.Moments
import TableQuery.Proofs.Sheet.TableName
import TableQuery.Proofs.Storage.Invariant
import TableQuery.Proofs.Storage.TableNames
import TableQuery.Proofs.Storage.Replaced
import TableQuery.Proofs.Storage.Requery
import TableQuery.Proofs.Value.Numbers
import TableQuery.Proofs.Calendar.Bounds
import TableQuery.Proofs.Tabular.Readable
import TableQuery.Proofs.Binary64.Integer
import TableQuery.Proofs.Value.Finite
import TableQuery.Proofs.Engine.Answers
import TableQuery.Proofs.Engine.Integers
import TableQuery.Proofs.Engine.Finite
import TableQuery.Proofs.Web.Warning
import TableQuery.Proofs.Storage.Views
import TableQuery.Proofs.Storage.LoadedTable
import TableQuery.Proofs.Sorting.Lowest
import TableQuery.Proofs.Rows.Arranged
import TableQuery.Proofs.Text.Classes
import TableQuery.Proofs.Calendar.LayoutText
import TableQuery.Proofs.Calendar.LayoutMarks
import TableQuery.Proofs.Value.Layouts
import TableQuery.Proofs.Sheet.CellText
import TableQuery.Proofs.Sheet.UsedRange
import TableQuery.Proofs.Sheet.Padding
import TableQuery.Proofs.Binary64.Grammar
import TableQuery.Proofs.Value.NumberTexts
import TableQuery.Proofs.Binary64.Monotone
import TableQuery.Proofs.Rows.NumberColumns
import TableQuery.Proofs.Rows.Filter
import TableQuery.Proofs.Sql.Identifier
import TableQuery.Proofs.Sql.Modes
import TableQuery.Proofs.Text.Replace
import TableQuery.Proofs.Sql.Inlined
import TableQuery.Proofs.Row.Concatenation
import TableQuery.Proofs.Sorting.Unique
import TableQuery.Proofs.Json.Length
import TableQuery.Proofs.Rows.Commuting
import TableQuery.Proofs.Request.Fields
import TableQuery.Proofs.Request.Integer
import TableQuery.Proofs.Request.Normal
import TableQuery.Proofs.Storage.Shelf
import TableQuery.Proofs.Web.Upload
import TableQuery.Proofs.Row.Parts
import TableQuery.Proofs.Row.Script
