import TableQuery.ResultSet
import TableQuery.Workbook

/-!
# Exporting rows

Rows are exported as a sheet of texts: the header is the columns of the first row, and
every row gives its own values in its own order. Without rows nothing is written.
-/

namespace TableQuery.Export

open TableQuery.Text

/-- The table that rows are written as. -/
def table? : List Row → Option TextTable
  | [] => none
  | row :: rows => some ⟨row.columns, (row :: rows).map fun r => r.values.map Value.words⟩

@[simp] theorem table?_nil : table? [] = none := rfl

/-- The error of an export to a sheet that failed. -/
def failed (sheet : String) (f : Failure) : QueryError :=
  .exportFailed sheet (f.message?.getD f.name)

/-- The workbook after an export of rows to a sheet. -/
def write (w : Workbook) (sheet : String) (t : TextTable) : Except QueryError Workbook :=
  match w.replaceSheet sheet t with
  | .ok w => .ok w
  | .error f => .error (failed sheet f)

/-- The sheet that a name stands for, none when it is blank. -/
def sheetName? : Option String → Option String
  | some name => if isBlankText name then none else some name
  | none => none

@[simp] theorem sheetName?_none : sheetName? none = none := rfl

end TableQuery.Export
