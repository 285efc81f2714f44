import TableQuery.Storage.Files
import TableQuery.Tabular

/-!
# The workbook file

Operations on the workbook at a configured path. An operation that is refused writes
nothing, and one that writes replaces the whole file. A workbook is opened as it was
saved; whether a file can hold all characters of its titles and texts is not looked at
here.
-/

namespace TableQuery.WorkbookFile

open TableQuery.Text

/-- The configured path; an empty one counts as none. -/
def configured : Option String → Except Failure String
  | none => .error (.query .workbookUnset)
  | some s => if s = "" then .error (.query .workbookUnset) else .ok s

/-- There is something at the configured path. -/
def isPresent (files : Files) (path : Option String) : Bool :=
  match configured path with
  | .ok s => files.has (Path.ofText s)
  | .error _ => false

/-- The workbook at a path, whose suffix tells its format. -/
def openAt (files : Files) (s : String) : Except Failure Workbook :=
  let p := Path.ofText s
  let suffix := lower p.suffix
  if !files.has p then .error (.query (.workbookMissing s))
  else if !Failure.workbookFormats.contains suffix then .error (.formatUnknown suffix)
  else
    match files.find? p with
    | some (.workbook w) => .ok w
    | some _ => .error .notAWorkbook
    | none => .error (.isDirectory p.text)

/-- The workbook at the configured path. -/
def openFile (files : Files) (path : Option String) : Except Failure Workbook :=
  match configured path with
  | .error e => .error e
  | .ok s => openAt files s

/-- The files with a workbook written at the configured path. -/
def save (files : Files) (path : Option String) (w : Workbook) : Files :=
  files.put (Path.ofText (path.getD "")) (.workbook w)

/-- Replaces a sheet of the workbook. -/
def replaceSheet (files : Files) (path : Option String) (name : String) (t : TextTable) :
    Except Failure Files :=
  match openFile files path with
  | .error e => .error e
  | .ok w =>
    match w.replaceSheet name t with
    | .error e => .error e
    | .ok w => .ok (save files path w)

/-- Exports rows to a sheet of the workbook. -/
def exportRows (files : Files) (path : Option String) (name : String) (rows : List Row) :
    Except Failure Files :=
  match Export.table? rows with
  | none => .ok files
  | some t =>
    match replaceSheet files path name t with
    | .ok files => .ok files
    | .error e => .error (.query (Export.failed name e))

/-- Makes a file the workbook at the configured path, and tells that path. -/
def install (files : Files) (path : Option String) (source : Content) :
    Except Failure (Path × Files) :=
  match configured path with
  | .error e => .error e
  | .ok s =>
    match source with
    | .workbook w => .ok (Path.ofText s, save files path w)
    | _ => .error .notAWorkbook

/-- The answer of a query over the workbook. -/
def query (deadline : Option Deadline) (files : Files) (path : Option String) (r : Request) :
    Except Failure (ResultSet × Files) :=
  match openFile files path with
  | .error e => .error e
  | .ok w =>
    match Tabular.run deadline w r with
    | .error e => .error e
    | .ok (result, written) =>
      .ok (result, (written.map (save files path)).getD files)

end TableQuery.WorkbookFile
