import TableQuery.Deadline
import TableQuery.Export
import TableQuery.Request.Basic
import TableQuery.Rows.Order
import TableQuery.Rows.Select

/-!
# Queries over workbooks

A query over a workbook loads its base sheet, joins further sheets from left to right,
filters, orders, projects and pages. What is left may be exported to a sheet; an
export that fails becomes a warning and leaves the workbook as it was.
-/

namespace TableQuery.Tabular

/-- The rows joined with the sheets of a list of joins, one after the other. -/
def joinSheets (b : Book) : List Row → List JoinSpec → Except Failure (List Row)
  | rows, [] => .ok rows
  | rows, j :: joins =>
    match b.load j.table with
    | .error e => .error (.query e)
    | .ok right =>
      match Rows.join rows right j.leftColumn j.rightColumn with
      | .error key => .error (.ofMissingKey key)
      | .ok joined => joinSheets b joined joins

@[simp] theorem joinSheets_nil (b : Book) (rows : List Row) :
    joinSheets b rows [] = .ok rows := rfl

/-- The rows of a query before its projection and page. -/
def fullRows (deadline : Option Deadline) (b : Book) (r : Request) : Except Failure (List Row) :=
  match b.load r.table with
  | .error e => .error (.query e)
  | .ok base =>
    match checkDeadline deadline with
    | .error e => .error (.query e)
    | .ok () =>
      match joinSheets b base r.joins with
      | .error e => .error e
      | .ok joined =>
        match Rows.order (Rows.filter joined r.filter) r.orderBy with
        | .error e => .error (.ofOutOfRange e)
        | .ok ordered => .ok ordered

/-- The projection and the page of a query. -/
def view (r : Request) (rows : List Row) : List Row :=
  Rows.page (Rows.project rows r.projection) (r.offset.map Int.ofNat) (r.limit.map Int.ofNat)

/-- The rows of a query. -/
def rows (deadline : Option Deadline) (b : Book) (r : Request) : Except Failure (List Row) :=
  (fullRows deadline b r).map (view r)

/-- What an export leaves behind: the new workbook when one was written, and the
warnings. -/
structure Exported where
  workbook : Option Workbook := none
  warnings : List String := []

/-- Exports rows to the sheet that a request names. -/
def exportRows (w : Workbook) (r : Request) (rows : List Row) : Exported :=
  match Export.sheetName? r.exportSheet, Export.table? rows with
  | some sheet, some t =>
    match Export.write w sheet t with
    | .ok w => { workbook := some w }
    | .error e => { warnings := [e.message] }
  | _, _ => {}

/-- The answer of a query over a workbook, and the new workbook when an export wrote
one. -/
def run (deadline : Option Deadline) (w : Workbook) (r : Request) :
    Except Failure (ResultSet × Option Workbook) :=
  match rows deadline w.book r with
  | .error e => .error e
  | .ok rows =>
    let exported := exportRows w r rows
    .ok ({ rows, warnings := exported.warnings }, exported.workbook)

end TableQuery.Tabular
