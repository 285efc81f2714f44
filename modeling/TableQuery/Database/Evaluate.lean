import TableQuery.Answer
import TableQuery.Database.Basic
import TableQuery.Database.Plan
import TableQuery.Failure

/-!
# Evaluating plans

Names are bound first: the tables with their joins, then the projection, the
condition and the order. The rows are the pairs of the joined tables that satisfy
every join, in the order of the base table; the condition keeps some, the order
sorts them with missing values last, and the page cuts them.
-/

namespace TableQuery

open TableQuery.Text

/-- A column in the scope of a query: its table, with catalog and schema, its name
and its type. -/
structure ScopeColumn where
  table : Name
  name : String
  type : ColumnType

namespace Evaluate

/-- Names that are equal part by part without regard to ASCII case. -/
def sameNames (a b : Name) : Bool :=
  a.map lowerAscii == b.map lowerAscii

/-- The schema that holds the tables. -/
def mainSchema : String := "main"

/-- The full name of a table. -/
def fullName (catalog table : String) : Name :=
  [catalog, mainSchema, table]

/-- The table that a name refers to in a database with a catalog name. -/
def findTable (catalog : String) (d : Database) (name : Name) : Except DatabaseError TableData :=
  let lookup (t : String) : Except DatabaseError TableData :=
    match d.table? t with
    | some data => .ok data
    | none => .error .catalog
  match name with
  | [t] => lookup t
  | [s, t] => if sameName s mainSchema || sameName s catalog then lookup t else .error .catalog
  | [c, s, t] =>
    if !sameName c catalog then .error .binder
    else if sameName s mainSchema then lookup t
    else .error .catalog
  | _ => .error .malformed

/-- The columns of a table in scope. -/
def scopeOf (catalog : String) (t : TableData) : List ScopeColumn :=
  t.columns.map fun (name, type) => ⟨fullName catalog t.name, name, type⟩

/-- A qualifier refers to a table: the end of its full name, or catalog and table. -/
def qualifies (qualifier table : Name) : Bool :=
  match table with
  | [c, s, t] => [[], [t], [s, t], [c, t], [c, s, t]].any (sameNames qualifier)
  | _ => false

/-- The position of the one column that a name refers to. -/
def resolve (scope : List ScopeColumn) (name : Name) : Except DatabaseError Nat :=
  match name.reverse with
  | [] => .error .binder
  | column :: qualifier =>
    let hits := scope.zipIdx.filter fun (c, _) =>
      sameName c.name column && qualifies qualifier.reverse c.table
    match hits with
    | [(_, i)] => .ok i
    | _ => .error .binder

/-- The value at a position, missing beyond the end. -/
def valueAt (row : List Datum) (i : Nat) : Datum :=
  row.getD i .null

/-- A value is missing. -/
def isMissing : Datum → Bool
  | .null => true
  | _ => false

/-- Two columns can be compared: both are numbers, or of one type, or one is a text. -/
def comparable (a b : ColumnType) : Bool :=
  a.isNumeric && b.isNumeric || a == b || a == .varchar || b == .varchar ||
    [a, b] == [.date, .timestamp] || [a, b] == [.timestamp, .date]

/-- Two values of comparable columns are equal. A text beside another type is read as
a value of that type. -/
def equalValues (a b : ColumnType) (x y : Datum) : Except DatabaseError Bool :=
  if isMissing x || isMissing y then .ok false
  else
    let read (type : ColumnType) (d : Datum) : Except DatabaseError Datum :=
      match type.store? d with
      | some v => .ok v
      | none => .error .conversion
    if a == .varchar && b != .varchar then
      (read b x).map fun x => ColumnType.compareValues x y == .eq
    else if b == .varchar && a != .varchar then
      (read a y).map fun y => ColumnType.compareValues x y == .eq
    else .ok (ColumnType.compareValues x y == .eq)

/-- Two lists of rows paired up, left order first, where the condition holds. -/
def pairs (holds : List Datum → Except DatabaseError Bool) (left right : List (List Datum)) :
    Except DatabaseError (List (List Datum)) :=
  left.foldlM (fun acc l =>
    right.foldlM (fun acc r =>
      (holds (l ++ r)).map fun ok => if ok then (l ++ r) :: acc else acc) acc) []
    |>.map List.reverse

/-- The tables of a plan bound one after the other: each joined table, which must not
occur before, and the columns it is joined on. -/
def bindJoins (catalog : String) (d : Database) :
    List ScopeColumn → List PlanJoin →
      Except DatabaseError (List ScopeColumn × List (TableData × Nat × Nat))
  | scope, [] => .ok (scope, [])
  | scope, j :: joins => do
    let t ← findTable catalog d j.table
    if scope.any fun c => sameNames c.table (fullName catalog t.name) then throw .binder
    let scope := scope ++ scopeOf catalog t
    let left ← resolve scope j.left
    let right ← resolve scope j.right
    let comparableTypes := match scope[left]?, scope[right]? with
      | some a, some b => comparable a.type b.type
      | _, _ => false
    if !comparableTypes then throw .binder
    let (scope, rest) ← bindJoins catalog d scope joins
    return (scope, (t, left, right) :: rest)

/-- The rows of the joined tables. -/
def joinRows (scope : List ScopeColumn) :
    List (List Datum) → List (TableData × Nat × Nat) → Except DatabaseError (List (List Datum))
  | rows, [] => .ok rows
  | rows, (t, left, right) :: joins => do
    let typeAt (i : Nat) : ColumnType := (scope[i]?.map ScopeColumn.type).getD .varchar
    let joined ← pairs (fun row =>
      equalValues (typeAt left) (typeAt right) (valueAt row left) (valueAt row right)) rows t.rows
    joinRows scope joined joins

/-- The positions that an entry of the projection selects. -/
def itemPositions (scope : List ScopeColumn) : PlanItem → Except DatabaseError (List Nat)
  | .all => .ok (List.range scope.length)
  | .allOf table =>
    let hits := scope.zipIdx.filter fun (c, _) => qualifies table c.table
    if hits.isEmpty then .error .binder else .ok (hits.map Prod.snd)
  | .column name => (resolve scope name).map fun i => [i]

/-- A condition with its column bound. -/
structure BoundCondition where
  position : Nat
  type : ColumnType
  table : Name
  comparison : Comparison
  literal : String

/-- Binds the column of a condition. -/
def bindCondition (scope : List ScopeColumn) (c : PlanCondition) :
    Except DatabaseError BoundCondition := do
  let i ← resolve scope c.column
  match scope[i]? with
  | some column => return ⟨i, column.type, column.table, c.comparison, c.literal⟩
  | none => throw .binder

/-- The rows that satisfy a condition. The literal is read as a value of the column's
type, which is not done when the table of the column has no rows. -/
def filterRows (d : Database) (c : BoundCondition) (rows : List (List Datum)) :
    Except DatabaseError (List (List Datum)) :=
  let table := d.table? (c.table.getLastD "")
  if table.all fun t => t.rows.isEmpty then .ok []
  else
    match c.type.readText? c.literal with
    | none => .error .conversion
    | some literal =>
      .ok (rows.filter fun row =>
        let v := valueAt row c.position
        !isMissing v && c.comparison.holds (ColumnType.compareValues v literal))

/-- The first row stands before or level with the second: missing values last in both
directions. -/
def rowLE (descending : Bool) (i : Nat) (a b : List Datum) : Bool :=
  let x := valueAt a i
  let y := valueAt b i
  if isMissing x then isMissing y
  else if isMissing y then true
  else
    let o := ColumnType.compareValues x y
    if descending then o.isGE else o.isLE

/-- The rows of a page. -/
def page {α : Type} (offset limit : Option Nat) (rows : List α) : List α :=
  let rest := rows.drop (offset.getD 0)
  match limit with
  | some n => rest.take n
  | none => rest

/-- The answer of a plan over a database with a catalog name. -/
def run (catalog : String) (d : Database) (p : Plan) : Except DatabaseError Answer := do
  let base ← findTable catalog d p.table
  let (scope, joins) ← bindJoins catalog d (scopeOf catalog base) p.joins
  let positions ← p.items.mapM (itemPositions scope)
  let condition ← match p.condition with
    | some c => (bindCondition scope c).map some
    | none => pure none
  let order ← match p.order with
    | some (name, descending) => (resolve scope name).map fun i => some (i, descending)
    | none => pure none
  let rows ← joinRows scope base.rows joins
  let rows ← match condition with
    | some c => filterRows d c rows
    | none => pure rows
  let rows := match order with
    | some (i, descending) => rows.mergeSort (rowLE descending i)
    | none => rows
  let rows := page p.offset p.limit rows
  let chosen := positions.flatten
  return {
    columns := chosen.map fun i => (scope[i]?.map ScopeColumn.name).getD ""
    rows := rows.map fun row => chosen.map (valueAt row) }

end Evaluate

end TableQuery
