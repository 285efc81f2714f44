import TableQuery.Sql.Select
import TableQuery.Sql.Verbatim

/-!
# Query plans

A plan is the meaning of a statement before its names are bound: where the rows come
from, the condition, the order and the page. `ofVerbatim?` reads the plan of a statement
whose fragments are plain names, comparisons and directions.
-/

namespace TableQuery

open TableQuery.Text TableQuery.Sql

/-- The parts of a name. -/
abbrev Name := List String

/-- How a column is compared with a literal. -/
inductive Comparison
  | equal
  | notEqual
  | less
  | lessOrEqual
  | greater
  | greaterOrEqual
  deriving DecidableEq

namespace Comparison

/-- The comparison holds for an outcome. -/
def holds : Comparison → Ordering → Bool
  | .equal, o => o == .eq
  | .notEqual, o => o != .eq
  | .less, o => o == .lt
  | .lessOrEqual, o => o != .gt
  | .greater, o => o == .gt
  | .greaterOrEqual, o => o != .lt

end Comparison

/-- An entry of the projection of a plan. -/
inductive PlanItem
  | all
  | allOf (table : Name)
  | column (name : Name)

/-- A joined table and the columns that must be equal. -/
structure PlanJoin where
  table : Name
  left : Name
  right : Name

/-- A comparison of a column with a literal. -/
structure PlanCondition where
  column : Name
  comparison : Comparison
  literal : String

/-- A query before its names are bound. -/
structure Plan where
  items : List PlanItem
  table : Name
  joins : List PlanJoin
  condition : Option PlanCondition
  order : Option (Name × Bool)
  limit : Option Nat
  offset : Option Nat

namespace Plan

/-- The parts of an identifier. -/
def nameOf (i : Identifier) : Name :=
  i.parts.map String.ofList

/-- An entry of a selection. -/
def ofItem : SelectItem → PlanItem
  | .all => .all
  | .allOf t => .allOf (nameOf t)
  | .column c => .column (nameOf c)

/-- The parts of a plain name in a verbatim statement. -/
def plainName? (s : String) : Option Name :=
  (Identifier.parse? s).map nameOf

/-- An entry of a verbatim projection. -/
def plainItem? (s : String) : Option PlanItem :=
  match SelectItem.read s with
  | .ok item => some (ofItem item)
  | .error _ => none

/-- The comparison signs, longer ones first. -/
def signs : List (List Char × Comparison) :=
  [("<>".toList, .notEqual), ("!=".toList, .notEqual), ("<=".toList, .lessOrEqual),
    (">=".toList, .greaterOrEqual), ("==".toList, .equal), ("=".toList, .equal),
    ("<".toList, .less), (">".toList, .greater)]

/-- A literal of a verbatim condition: a number, or a text in single quotes. -/
def plainLiteral? (s : List Char) : Option String :=
  match stripBy isBlank s with
  | '\'' :: rest =>
    match rest.reverse with
    | '\'' :: body =>
      if body.contains '\'' then none else some (String.ofList body.reverse)
    | _ => none
  | body => if Binary64.isDecimal body then some (String.ofList body) else none

/-- A verbatim condition: a column, a comparison sign and a literal. -/
def plainCondition? (s : String) : Option PlanCondition :=
  let isSign (c : Char) : Bool := ['<', '>', '=', '!'].contains c
  let left := s.toList.takeWhile fun c => !isSign c
  let rest := s.toList.dropWhile fun c => !isSign c
  match signs.find? fun (sign, _) => sign.isPrefixOf rest with
  | none => none
  | some (sign, comparison) =>
    match plainName? (String.ofList left), plainLiteral? (rest.drop sign.length) with
    | some column, some literal => some ⟨column, comparison, literal⟩
    | _, _ => none

/-- A verbatim order: a column and possibly a direction. -/
def plainOrder? (s : String) : Option (Name × Bool) :=
  if SortOrder.isStrict s then
    match SortOrder.ofText? s with
    | some o => (plainName? o.column).map (·, o.descending)
    | none => none
  else none

/-- A verbatim join. -/
def plainJoin? (base : String) (j : JoinSpec) : Option PlanJoin :=
  match plainName? j.table, plainName? (base ++ "." ++ j.leftColumn),
    plainName? (j.table ++ "." ++ j.rightColumn) with
  | some table, some left, some right => some ⟨table, left, right⟩
  | _, _, _ => none

/-- Reads an optional part. -/
def readGiven? {α : Type} (read : String → Option α) : Option String → Option (Option α)
  | none => some none
  | some s => (read s).map some

/-- The plan of a verbatim statement made of plain fragments. -/
def ofVerbatim? (r : Request) : Option Plan := do
  let items ← if r.hasProjection then r.projection.mapM plainItem? else some [.all]
  let table ← plainName? r.table
  let joins ← r.joins.mapM (plainJoin? r.table)
  let condition ← readGiven? plainCondition? (given? r.filter)
  let order ← readGiven? plainOrder? (given? r.orderBy)
  return ⟨items, table, joins, condition, order, r.limit, r.offset⟩

end Plan

end TableQuery
