import TableQuery.Engine
import TableQuery.Storage.DatabaseFile
import TableQuery.Storage.WorkbookFile

/-!
# Running requests

A request runs on the engine that it names: over the database or over the workbook.
Only the export of a query over the workbook changes a file.
-/

namespace TableQuery

/-- Where the stores are, how statements are made, and the microseconds that loading a
sheet takes. -/
structure Service where
  databasePath : Option String := none
  workbookPath : Option String := none
  mode : Sql.Mode := .safe
  loadingTime : Nat := 2000

namespace Service

/-- The answer of a request, and the files afterwards. -/
def run (s : Service) (limit : Option Seconds) (files : Files) (r : Request) :
    Except Failure (ResultSet × Files) :=
  match Engine.ofName (some r.engine) with
  | .error e => .error (.query e)
  | .ok .relational =>
    (DatabaseFile.query s.mode files s.databasePath r).map fun result => (result, files)
  | .ok .tabular =>
    WorkbookFile.query (Deadline.of limit s.loadingTime) files s.workbookPath r

end Service

end TableQuery
