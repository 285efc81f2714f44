import TableQuery.Expression.Filter
import TableQuery.Expression.Order
import TableQuery.Request.Basic
import TableQuery.Sql.Identifier
import TableQuery.Sql.Statement

/-!
# Selections

A `Select` is a query whose every name is an identifier and whose filter literal is
a value. `Select.ofRequest` reads one from a request and refuses what does not fit;
`Select.statement` renders it with all names in quotes and the literal as a
parameter.
-/

namespace TableQuery.Sql

open TableQuery.Text

/-- An entry of the projection. -/
inductive SelectItem
  | all
  | allOf (table : Identifier)
  | column (column : Identifier)
  deriving DecidableEq

/-- A joined table and the two columns that must be equal. -/
structure JoinClause where
  table : Identifier
  leftColumn : Identifier
  rightColumn : Identifier
  deriving DecidableEq

/-- A filter on one column. -/
structure FilterClause where
  column : Identifier
  literal : String
  deriving DecidableEq

/-- A sort column and its direction. -/
structure OrderClause where
  column : Identifier
  descending : Bool
  deriving DecidableEq

/-- A query over named tables. -/
structure Select where
  items : List SelectItem
  table : Identifier
  joins : List JoinClause
  filter : Option FilterClause
  order : Option OrderClause
  limit : Option Nat
  offset : Option Nat
  deriving DecidableEq

namespace SelectItem

/-- The entry that a text denotes: `*`, a table with `.*`, or a column. -/
def read (s : String) : Except QueryError SelectItem :=
  let body := trimChars s
  if body = ['*'] then .ok .all
  else if ['.', '*'].isSuffixOf body then
    (Identifier.read "column" (String.ofList (body.take (body.length - 2)))).map .allOf
  else (Identifier.read "column" (String.ofList body)).map .column

/-- The entry as it stands in a statement. -/
def render : SelectItem → String
  | .all => "*"
  | .allOf table => table.quoted ++ ".*"
  | .column c => c.quoted

end SelectItem

namespace JoinClause

/-- The join of a request. The base table is read once more for its qualified
column. -/
def read (base : String) (j : JoinSpec) : Except QueryError JoinClause := do
  let table ← Identifier.read "table" j.table
  let _ ← Identifier.read "table" base
  let leftColumn ← Identifier.read "column" j.leftColumn
  let rightColumn ← Identifier.read "column" j.rightColumn
  return ⟨table, leftColumn, rightColumn⟩

/-- The clause of a join to a base table. -/
def render (base : Identifier) (j : JoinClause) : String :=
  "INNER JOIN " ++ j.table.quoted ++ " ON " ++ qualified base j.leftColumn ++ " = " ++
    qualified j.table j.rightColumn

end JoinClause

/-- A text that is given and not blank. -/
def given? (s : Option String) : Option String :=
  s.filter fun s => !isBlankText s

namespace FilterClause

/-- The filter of a text, which must have an equals sign and a column before it. -/
def read (s : String) : Except QueryError FilterClause :=
  match Equality.ofText? s with
  | none => .error (.filterUnsupported s)
  | some p => (Identifier.read "filter column" p.column).map (⟨·, p.literal⟩)

end FilterClause

namespace OrderClause

/-- The order of a text, which must be one column and at most a direction. -/
def read (s : String) : Except QueryError OrderClause :=
  match SortOrder.ofText? s with
  | none => .error (.orderUnsupported s)
  | some o =>
    if SortOrder.isStrict s then
      (Identifier.read "order column" o.column).map (⟨·, o.descending⟩)
    else .error (.orderUnsupported s)

/-- The order as it stands in a statement. -/
def render (o : OrderClause) : String :=
  o.column.quoted ++ (if o.descending then " DESC" else " ASC")

end OrderClause

/-- Reads an optional part. -/
def readGiven {α : Type} (read : String → Except QueryError α) :
    Option String → Except QueryError (Option α)
  | none => .ok none
  | some s => (read s).map some

namespace Select

/-- The selection that a request describes. The parts are read in the order of the
statement, and the first that does not fit is reported. -/
def ofRequest (r : Request) : Except QueryError Select := do
  let items ← r.projection.mapM SelectItem.read
  let table ← Identifier.read "table" r.table
  let joins ← r.joins.mapM (JoinClause.read r.table)
  let filter ← readGiven FilterClause.read (given? r.filter)
  let order ← readGiven OrderClause.read (given? r.orderBy)
  return ⟨items, table, joins, filter, order, r.limit, r.offset⟩

/-- The projection of a statement. -/
def renderItems (items : List SelectItem) : String :=
  if items.isEmpty then "*" else String.intercalate ", " (items.map SelectItem.render)

/-- The clauses of a statement in their order. -/
def clauses (s : Select) : List String :=
  ["SELECT " ++ renderItems s.items, "FROM " ++ s.table.quoted] ++
    s.joins.map (JoinClause.render s.table) ++
    (match s.filter with
      | some f => ["WHERE " ++ f.column.quoted ++ " = " ++ Statement.placeholder 1]
      | none => []) ++
    (match s.order with
      | some o => ["ORDER BY " ++ o.render]
      | none => []) ++
    (match s.limit with
      | some n => ["LIMIT " ++ n.repr]
      | none => []) ++
    (match s.offset with
      | some n => ["OFFSET " ++ n.repr]
      | none => [])

/-- The statement of a selection; its only parameter is the filter literal. -/
def statement (s : Select) : Statement where
  sql := String.intercalate " " s.clauses
  params := (s.filter.map fun f => Datum.text f.literal).toList

end Select

end TableQuery.Sql
