import TableQuery.Config
import TableQuery.Storage.WorkbookFile
import TableQuery.Web.Message

/-!
# Receiving workbooks

An uploaded workbook is kept in the upload directory under its name and the time, and
becomes the workbook of the service. A file that is refused by its name or size is not
kept, nor is one that is no workbook.
-/

namespace TableQuery.Web

open TableQuery.Text

/-- The suffixes of files that may be uploaded. -/
def uploadSuffixes : List String := [".xlsx", ".xlsm"]

/-- The path under which an upload is kept. -/
def keptPath (config : Config) (stamp : String) (name : String) : Path :=
  let given := Path.ofText name
  (Path.ofText config.uploadDir).join (given.stem ++ "_" ++ stamp ++ lower given.suffix)

/-- The size of an upload is allowed: at least one byte, and no more than configured. -/
def sizeAllowed (config : Config) (size : Nat) : Bool :=
  size != 0 && (size : Int) ≤ config.maxUploadBytes

/-- The response to an upload that became the workbook of the service. -/
def uploadAccepted (name : String) (kept active : Path) : Response :=
  .ok (.document (.object [("message", .text "Workbook uploaded successfully."),
    ("originalName", .text name), ("uploadPath", .text kept.text),
    ("activeWorkbook", .text active.text)]))

/-- The name of a file ends in one of the suffixes, in letters of either case. -/
def suffixAllowed (name : String) : Bool :=
  uploadSuffixes.contains (lower (Path.ofText name).suffix)

/-- The response to a file that is refused by its name. -/
def uploadMisnamed : Response :=
  .refusal 400 ("Only Excel files (" ++ String.intercalate ", " uploadSuffixes ++
    ") are supported.")

/-- The response to a file that is refused by its size. -/
def uploadMissized (config : Config) : Response :=
  .refusal 400 ("Upload must be 1.." ++ Binary64.intText config.maxUploadBytes ++ " bytes.")

/-- The response to a file that is no workbook. -/
def uploadUnreadable (f : Failure) : Response :=
  .refusal 400 ("Not a readable workbook: " ++ f.message?.getD f.name)

/-- Makes a kept file the workbook of the service. A query error leaves the kept
file. -/
def activate (config : Config) (files : Files) (kept : Path) (u : Upload) :
    Except Failure Response × Files :=
  let stored := files.put kept u.content
  match WorkbookFile.install stored config.workbookPath u.content with
  | .ok (active, files) => (.ok (uploadAccepted u.name kept active), files)
  | .error (.query e) => (ofFailure (.query e), stored)
  | .error f => (.ok (uploadUnreadable f), files.remove kept)

/-- Receives an upload at a time. -/
def receive (config : Config) (stamp : String) (files : Files) (u : Upload) :
    Except Failure Response × Files :=
  if !suffixAllowed u.name then (.ok uploadMisnamed, files)
  else
    let kept := keptPath config stamp u.name
    if !sizeAllowed config u.size then (.ok (uploadMissized config), files.remove kept)
    else activate config files kept u

/-- The fault of a call without a file, or with a field of text in its place. -/
def uploadFault (u : Option Upload) : Response :=
  let kind : FaultKind := match u with
    | some u => if u.size = 0 then .missing else .notUpload
    | none => .missing
  .invalid [⟨kind, ["file"]⟩]

end TableQuery.Web
