import TableQuery.ResultSet
import TableQuery.Sheet.Basic

/-!
# Workbooks

A workbook is the contents of a workbook file: its sheets in order. `replaceSheet`
deletes the first sheet whose title matches a name and appends a written sheet; when
anything about the new sheet is refused there is no new workbook at all.
-/

namespace TableQuery

open TableQuery.Text

/-- The contents of a workbook file. -/
structure Workbook where
  sheets : List Sheet

namespace Workbook

/-- The titles of the sheets in order. -/
def titles (w : Workbook) : List String :=
  w.sheets.map Sheet.title

/-- The sheets as they are read. -/
def book (w : Workbook) : Book :=
  w.sheets.map fun s => (s.title, s.grid)

/-- The names of all tables. -/
def tableNames (w : Workbook) : List String :=
  w.sheets.flatMap fun s => s.tables.map SheetTable.name

/-- The sheets without the first whose title matches a name. -/
def dropMatching (name : String) : List Sheet → List Sheet
  | [] => []
  | s :: sheets => if sameFold s.title name then sheets else s :: dropMatching name sheets

/-- The workbook with a sheet of a name replaced, or added when there is none. -/
def replaceSheet (w : Workbook) (name : String) (t : TextTable) : Except Failure Workbook := do
  let others : Workbook := ⟨dropMatching name w.sheets⟩
  let title ← Title.choose others.titles name
  let sheet ← Sheet.write title others.tableNames t
  return ⟨others.sheets.map Sheet.kept ++ [sheet]⟩

/-- Titled grids, the title chosen and every value accepted, beside the titles that
are there. -/
def acceptSheets (titles : List String) : List (String × Grid) → Except Failure (List (String × Grid))
  | [] => .ok []
  | (name, grid) :: rest => do
    let title ← Title.choose titles name
    let grid ← grid.mapM Sheet.acceptRow
    let rest ← acceptSheets (titles ++ [title]) rest
    return (title, grid) :: rest

/-- Named grids; a name that occurs again replaces the earlier grid in its place. -/
def putGrid (name : String) (grid : Grid) : List (String × Grid) → List (String × Grid)
  | [] => [(name, grid)]
  | (n, g) :: rest => if n = name then (n, grid) :: rest else (n, g) :: putGrid name grid rest

/-- A new workbook of named grids, at least one. -/
def create (grids : List (String × Grid)) : Except Failure Workbook := do
  let named := grids.foldl (fun acc (name, grid) => putGrid name grid acc) []
  let accepted ← acceptSheets [] named
  if accepted.isEmpty then throw .noSheets
  let sheets ← accepted.mapM fun (title, grid) => do
    let rows ← grid.mapM Sheet.writeRow
    return ({ title, rows } : Sheet)
  return ⟨sheets⟩

/-- The sheet with exactly a title. -/
def sheet? (w : Workbook) (title : String) : Option Sheet :=
  w.sheets.find? fun s => s.title == title

end Workbook

end TableQuery
