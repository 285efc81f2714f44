import TableQuery.CommandLine.Outcome
import TableQuery.Config
import TableQuery.Json.Printer
import TableQuery.Report.Basic
import TableQuery.Request.Validation
import TableQuery.ResultSet.Json
import TableQuery.Service

/-!
# The query command

The arguments of the command make a request, which is checked like any other, and say
where the stores are. The result is printed as a report or as JSON, and warnings go to
the error output.
-/

namespace TableQuery.CommandLine

/-- The options of the query command. -/
def queryCommand : CommandSpec where
  options := [
    { spellings := ["--engine"], required := true },
    { spellings := ["--table"], required := true },
    { spellings := ["--columns"], arity := .several },
    { spellings := ["--join"], kind := .join },
    { spellings := ["--filter"] },
    { spellings := ["--order-by"] },
    { spellings := ["--limit"], kind := .integer },
    { spellings := ["--offset"], kind := .integer },
    { spellings := ["--export"] },
    { spellings := ["--database"] },
    { spellings := ["--workbook"] },
    { spellings := ["--timeout"], kind := .number },
    { spellings := ["--raw-sql"], arity := .none },
    { spellings := ["--json"], arity := .none }]

namespace Given

/-- The value of an option as a JSON value, null when the option is absent. -/
def json (g : Given) (spelling : String) (read : String → Json) : Json :=
  match (g.last? spelling).bind List.head? with
  | none => .null
  | some value => read value

/-- An integer as a JSON value. -/
def integerJson (s : String) : Json :=
  match ValueKind.integer? s with
  | some n => .int n
  | none => .null

/-- The joins that the command lists. -/
def joins (g : Given) : List JoinSpec :=
  (g.occurrences "--join").flatMap fun values => values.filterMap JoinSpec.ofText?

/-- The request of the query command as a document. -/
def document (g : Given) : Json :=
  .object [("engine", g.json "--engine" .text), ("table", g.json "--table" .text),
    ("columns", match g.last? "--columns" with
      | some values => .array (values.map .text)
      | none => .null),
    ("joins", .array (g.joins.map Request.joinToJson)),
    ("filter", g.json "--filter" .text), ("order_by", g.json "--order-by" .text),
    ("limit", g.json "--limit" integerJson), ("offset", g.json "--offset" integerJson),
    ("export_sheet_name", g.json "--export" .text)]

/-- The path that an option gives, or the configured one. -/
def path (g : Given) (spelling : String) (fallback : Option String) : Option String :=
  match g.last? spelling with
  | some values => values.head?
  | none => fallback

/-- The limit that the command sets, or the configured one. -/
def timeout (g : Given) (fallback : Option Seconds) : Option Seconds :=
  match g.last? "--timeout" with
  | some values => (values.head?.bind Binary64.ofText?).map .real
  | none => fallback

/-- The service that the command runs. -/
def service (g : Given) (config : Config) : Service where
  databasePath := g.path "--database" config.databasePath
  workbookPath := g.path "--workbook" config.workbookPath
  mode := if g.has "--raw-sql" then .raw else config.mode
  loadingTime := config.loadingTime

end Given

/-- The text of a result. -/
def shown (json : Bool) (r : ResultSet) : String :=
  if json then r.toJson.pretty
  else if r.rows.isEmpty then "(no rows)"
  else Report.text r

/-- The lines for the warnings of a result. -/
def warningLines (r : ResultSet) : String :=
  String.join (r.warnings.map fun w => "WARNING: " ++ w ++ "\n")

/-- The outcome of running a request. -/
def outcomeOf (json : Bool) : Except Failure (ResultSet × Files) → Outcome
  | .ok (result, _) => .finished 0 (shown json result ++ "\n") (warningLines result)
  | .error (.query e) => .complaint (e.kind.name ++ ": " ++ e.message ++ "\n")
  | .error f => .failed f

/-- Runs the query command: the outcome, and the files afterwards. -/
def query (config : Config) (files : Files) (args : List String) : Outcome × Files :=
  match arguments queryCommand args with
  | .error s => (.stopped s, files)
  | .ok g =>
    match Request.ofJson .document g.document with
    | .error faults => (.refused faults, files)
    | .ok r =>
      let result := (g.service config).run (g.timeout config.timeout) files r
      (outcomeOf (g.has "--json") result,
        match result with
        | .ok (_, files) => files
        | .error _ => files)

end TableQuery.CommandLine
