import TableQuery.Json.Reader
import TableQuery.Request.Validation
import TableQuery.Service
import TableQuery.Web.Header
import TableQuery.Web.Receive

/-!
# The web service

The service answers calls by path and method. Queries and uploads may change files;
every other call only reads them. A failure that no response is foreseen for ends a call
without one.
-/

namespace TableQuery.Web

open TableQuery.Text

/-- What the service offers. -/
inductive Endpoint
  | home
  | query
  | tables
  | sheets
  | latest
  | upload
  deriving DecidableEq

/-- The endpoints with their methods and paths. -/
def endpoints : List (String × String × Endpoint) :=
  [("GET", "/", .home), ("POST", "/query", .query), ("GET", "/tables", .tables),
    ("GET", "/workbook/sheets", .sheets), ("GET", "/workbook/latest", .latest),
    ("POST", "/workbook/upload", .upload)]

/-- The method and the endpoint of a path. -/
def endpointAt? (path : String) : Option (String × Endpoint) :=
  (endpoints.find? fun (_, p, _) => p == path).map fun (method, _, e) => (method, e)

/-- A path without its query part; an empty one is the root. -/
def plainPath (s : String) : String :=
  let path := s.toList.takeWhile fun c => c != '?' && c != '#'
  if path.isEmpty then "/" else String.ofList path

/-- A path without slashes at its end. -/
def withoutSlashes (path : String) : String :=
  String.ofList (path.toList.reverse.dropWhile (· == '/')).reverse

/-- The method and the endpoint that a path leads to: its own, or that of the path
without slashes at its end. -/
def route? (s : String) : Option (String × Endpoint) :=
  let path := plainPath s
  match endpointAt? path with
  | some found => some found
  | none => endpointAt? (withoutSlashes path)

/-- The state of the service. -/
def home : Response :=
  .ok (.document (.object [("status", .text "ok"), ("service", .text "Query Playground"),
    ("version", .text "1.0")]))

/-- A text without a byte order mark in front. -/
def withoutMark (s : String) : String :=
  if startsWith "\ufeff" s then String.ofList (s.toList.drop 1) else s

/-- The document of a call. -/
def documentOf (payload : Payload) : Checked Json :=
  let text := match payload with
    | .document s => s
    | _ => ""
  if text.isEmpty then .refuse .missing
  else
    match Json.read (withoutMark text) with
    | .error (.broken position) => (Checked.refuse .brokenJson).under position.repr
    | .error .tooLong => .refuse .bodyUnread
    | .ok .null => .refuse .missing
    | .ok j => .ok j

/-- The request in the document of a call. -/
def requestOf (payload : Payload) : Checked Request :=
  match documentOf payload with
  | .error fs => .error fs
  | .ok j => Request.ofJson .web j

/-- The response to a query. -/
def ofResult (r : ResultSet) : Except Failure Response :=
  (warningHeader r.warnings).map fun warning => { Response.ok (.records r.records) with warning }

/-- The service that runs the queries. -/
def serviceOf (config : Config) : Service :=
  { databasePath := config.databasePath, workbookPath := config.workbookPath,
    mode := config.mode, loadingTime := config.loadingTime }

/-- Answers a query, with the files afterwards. -/
def answerQuery (config : Config) (files : Files) (payload : Payload) :
    Except Failure Response × Files :=
  match requestOf payload with
  | .error fs => (.ok (.invalid fs), files)
  | .ok r =>
    match (serviceOf config).run config.timeout files r with
    | .ok (result, files) => (ofResult result, files)
    | .error f => (ofFailure f, files)

/-- The size of a table as a JSON object. -/
def infoJson (t : TableInfo) : Json :=
  .object [("table", .text t.table), ("rows", .int t.rows), ("columns", .int t.columns)]

/-- Answers with the tables of the database. -/
def answerTables (config : Config) (files : Files) : Except Failure Response :=
  match DatabaseFile.openFile files config.databasePath with
  | .error f => ofFailure f
  | .ok d => .ok (.ok (.document (.array (d.info.map infoJson))))

/-- Answers with the titles of the sheets. -/
def answerSheets (config : Config) (files : Files) : Except Failure Response :=
  match WorkbookFile.openFile files config.workbookPath with
  | .error f => ofFailure f
  | .ok w => .ok (.ok (.document (.array (w.titles.map .text))))

/-- Answers with the workbook file. -/
def answerLatest (config : Config) (files : Files) : Except Failure Response :=
  if !WorkbookFile.isPresent files config.workbookPath then
    .ok (.refusal 404 "No active workbook found.")
  else
    let p := Path.ofText (config.workbookPath.getD "")
    match files.find? p with
    | some _ => .ok (.ok (.file (disposition p.name)))
    | none => .error (.notAFile p.text)

/-- Answers an upload, with the files afterwards. -/
def answerUpload (config : Config) (stamp : String) (files : Files) (payload : Payload) :
    Except Failure Response × Files :=
  match payload with
  | .file u =>
    if u.name = "" then (.ok (uploadFault (some u)), files) else receive config stamp files u
  | _ => (.ok (uploadFault none), files)

/-- Answers a call at a time, with the files afterwards. -/
def answer (config : Config) (stamp : String) (files : Files) (c : Call) :
    Except Failure Response × Files :=
  match route? c.path with
  | none => (.ok (.refusal 404 "Not Found"), files)
  | some (method, endpoint) =>
    if method ≠ upper c.method then (.ok (.refusal 405 "Method Not Allowed"), files)
    else
      match endpoint with
      | .home => (.ok home, files)
      | .query => answerQuery config files c.payload
      | .tables => (answerTables config files, files)
      | .sheets => (answerSheets config files, files)
      | .latest => (answerLatest config files, files)
      | .upload => answerUpload config stamp files c.payload

end TableQuery.Web
