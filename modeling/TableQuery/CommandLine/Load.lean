import TableQuery.CommandLine.Outcome
import TableQuery.Config
import TableQuery.Storage.DatabaseFile

/-!
# The load command

Loads a file of fields into a table of the database and prints how many rows the table
has then.
-/

namespace TableQuery.CommandLine

/-- The arguments of the load command. -/
def loadCommand : CommandSpec where
  positionals := ["file", "table"]
  options := [
    { spellings := ["--database"] },
    { spellings := ["--replace"], arity := .none }]

/-- The text of the file at a path. -/
def sourceText (files : Files) (s : String) : Except Failure String :=
  let p := Path.ofText s
  match files.find? p with
  | some (.text t) => .ok t
  | _ => if s ≠ "" && files.has p then .error (.isDirectory s) else .error (.fileMissing s)

/-- The database that the command writes to, none when it is not configured. -/
def loadTarget (config : Config) (g : Given) : Option String :=
  match g.last? "--database" with
  | some values => values.head?.filter (· ≠ "")
  | none => config.databasePath.filter (· ≠ "")

/-- Runs the load command: the outcome, and the files afterwards. -/
def load (config : Config) (files : Files) (args : List String) : Outcome × Files :=
  match arguments loadCommand args with
  | .error s => (.stopped s, files)
  | .ok g =>
    match g.positionals, loadTarget config g with
    | file :: table :: _, some database =>
      match DatabaseFile.load files database (g.has "--replace") table (sourceText files file) with
      | (.ok count, files) => (.finished 0 (table ++ ": " ++ count.repr ++ " rows\n") "", files)
      | (.error f, files) => (.failed f, files)
    | _, _ => (.complaint "DATABASE_PATH is not configured\n", files)

end TableQuery.CommandLine
