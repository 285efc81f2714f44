import TableQuery.Database.Load
import TableQuery.Relational
import TableQuery.Storage.Files

/-!
# The database file

Operations on the database at a configured path. Its catalog is named after the file.
Loading a file of fields makes the database first when there is none, so it is there
even if the loading fails later.
-/

namespace TableQuery.DatabaseFile

open TableQuery.Text

/-- The configured path; an empty one counts as none. -/
def configured : Option String → Except Failure String
  | none => .error (.query .databaseUnset)
  | some s => if s = "" then .error (.query .databaseUnset) else .ok s

/-- The name of the catalog of a database file. -/
def catalogOf (s : String) : String :=
  (Path.ofText s).stem

/-- The database at a path. -/
def openAt (files : Files) (s : String) : Except Failure Database :=
  let p := Path.ofText s
  if !files.has p then .error (.query (.databaseMissing s))
  else
    match files.find? p with
    | some (.database d) => .ok d
    | _ => .error (.database .unreadable)

/-- The database at the configured path. -/
def openFile (files : Files) (path : Option String) : Except Failure Database :=
  match configured path with
  | .error e => .error e
  | .ok s => openAt files s

/-- The answer of a query over the database. The statement is compiled before the
file is looked for; a verbatim one is understood only by the database itself. -/
def query (mode : Sql.Mode) (files : Files) (path : Option String) (r : Request) :
    Except Failure ResultSet :=
  match Sql.compile mode r with
  | .error e => .error (.query e)
  | .ok _ =>
    match openFile files path with
    | .error e => .error e
    | .ok d =>
      match Relational.plan mode r with
      | .error e => .error e
      | .ok p => Relational.evaluate (catalogOf (path.getD "")) d p

/-- The database at a path, a new one when there is nothing. -/
def openOrCreate (files : Files) (s : String) : Except Failure Database :=
  if files.has (Path.ofText s) then openAt files s else .ok {}

/-- Loads the text of a file into a table of the database at a path: the number of
rows of the table, and the files afterwards. -/
def load (files : Files) (s : String) (replace : Bool) (table : String)
    (source : Except Failure String) : Except Failure Nat × Files :=
  if !Database.isTableName table then (.error (.tableNameInvalid table), files)
  else
    match openOrCreate files s with
    | .error e => (.error e, files)
    | .ok d =>
      let p := Path.ofText s
      let created := files.put p (.database d)
      match source with
      | .error e => (.error e, created)
      | .ok text =>
        match Csv.read text with
        | .error e => (.error e, created)
        | .ok data =>
          match d.load replace table data with
          | .error e => (.error (.database e), created)
          | .ok (d, count) => (.ok count, files.put p (.database d))

end TableQuery.DatabaseFile
