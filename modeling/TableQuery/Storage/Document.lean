import TableQuery.Json.Basic
import TableQuery.Storage.Files

/-!
# Files described by a document

A document describes the files of a session: workbooks as sheets of cells, databases as
typed tables, and texts. Cells are JSON scalars.
-/

namespace TableQuery.Files

/-- A cell of a document. -/
def datumOfJson : Json → Datum
  | .bool b => .bool b
  | .int n => .int n
  | .float x => .float x
  | .text s => .text s
  | _ => .null

/-- The rows of cells in an array of arrays. -/
def rowsOfJson (j : Json) : List (List Datum) :=
  j.items.map fun row => row.items.map datumOfJson

/-- The named sheets of a workbook: an object of titles and rows. -/
def sheetsOfJson : Json → List (String × Grid)
  | .object members => members.map fun (title, rows) => (title, rowsOfJson rows)
  | _ => []

/-- The typed columns of a table: an object of names and types. An unknown type is that
of texts. -/
def columnsOfJson : Json → List (String × ColumnType)
  | .object members => members.map fun (name, type) =>
      (name, (type.text?.bind ColumnType.ofName?).getD .varchar)
  | _ => []

/-- A table with its columns and rows. -/
def tableOfJson? (name : String) (j : Json) : Option TableData :=
  Database.tableOf name (columnsOfJson ((j.member? "columns").getD .null))
    (rowsOfJson ((j.member? "rows").getD .null))

/-- The tables of a database: an object of names and tables. -/
def databaseOfJson : Json → Database
  | .object members => members.foldl (fun d (name, j) =>
      match tableOfJson? name j with
      | some t => d.put t
      | none => d) {}
  | _ => {}

/-- The content of a file: its sheets, its tables, or its text. -/
def contentOfJson (j : Json) : Except Failure Content :=
  match j with
  | .text s => .ok (.text s)
  | _ =>
    match j.member? "sheets", j.member? "tables" with
    | some sheets, _ => (Workbook.create (sheetsOfJson sheets)).map .workbook
    | none, some tables => .ok (.database (databaseOfJson tables))
    | none, none => .ok (.text "")

/-- The files of a list of paths and contents. -/
def ofMembers (files : Files) : List (String × Json) → Except Failure Files
  | [] => .ok files
  | (path, j) :: rest =>
    match contentOfJson j with
    | .error f => .error f
    | .ok c => ofMembers (files.put (Path.ofText path) c) rest

/-- The files that a document describes: an object of paths and contents. -/
def ofJson : Json → Except Failure Files
  | .object members => ofMembers {} members
  | _ => .ok {}

end TableQuery.Files
