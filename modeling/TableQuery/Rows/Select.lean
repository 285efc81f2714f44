import TableQuery.Expression.Filter
import TableQuery.Row
import TableQuery.Slice
import TableQuery.Value.Order

/-!
# Filtering, projecting and paging rows

`filter` keeps the rows whose cell matches a filter text, `project` keeps columns,
and `page` skips rows and limits their number.
-/

namespace TableQuery.Rows

/-- The row has the column of a filter and its cell matches the literal. -/
def satisfies (p : Equality) (row : Row) : Bool :=
  match row.get? p.column with
  | some value => value.matchesText p.literal
  | none => false

/-- The rows that satisfy a filter text; a text that is no filter keeps all. -/
def filter (rows : List Row) (text : Option String) : List Row :=
  match Equality.parse? text with
  | some p => rows.filter (satisfies p)
  | none => rows

@[simp] theorem filter_none (rows : List Row) : filter rows none = rows := rfl

/-- The rows with the listed columns only; an empty list keeps every column. -/
def project (rows : List Row) (columns : List String) : List Row :=
  if columns.isEmpty then rows else rows.map fun row => row.project columns

@[simp] theorem project_nil (rows : List Row) : project rows [] = rows := rfl

/-- The rows from an offset on, at most `limit` of them. -/
def page (rows : List Row) (offset limit : Option Int) : List Row :=
  slice none limit (slice offset none rows)

end TableQuery.Rows
