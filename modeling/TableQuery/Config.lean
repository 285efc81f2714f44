import TableQuery.Deadline
import TableQuery.Settings
import TableQuery.Sql.Compile

/-!
# Configuration of the program

What the command line and the web service need to know: where the stores are, how long
a query may take, how statements are made, and how large an upload may be.
-/

namespace TableQuery

/-- The configuration of the program, and the microseconds that loading a sheet takes
on its machine. -/
structure Config where
  databasePath : Option String
  workbookPath : Option String
  uploadDir : String
  timeout : Option Seconds
  mode : Sql.Mode
  maxUploadBytes : Int
  loadingTime : Nat := 2000

namespace Config

/-- The deadline of a query. -/
def deadline (c : Config) : Option Deadline :=
  Deadline.of c.timeout c.loadingTime

/-- The configuration that settings describe. -/
def ofSettings (s : Settings) : Config where
  databasePath := s.databasePath
  workbookPath := s.workbookPath
  uploadDir := s.uploadDir
  timeout := some (.real s.queryTimeout)
  mode := if s.rawSqlFragments then .raw else .safe
  maxUploadBytes := s.maxUploadBytes

end Config

end TableQuery
