import TableQuery.CommandLine.Load
import TableQuery.CommandLine.Query
import TableQuery.Json.Reader
import TableQuery.Storage.Document

/-!
# The program

The first argument names the command, `query` or `load`; the files that it works on are
described by a document on the standard input, and the settings are those of the
environment.
-/

namespace TableQuery.Program

open CommandLine

/-- The names of the settings. -/
def settingNames : List String :=
  ["DATABASE_PATH", "WORKBOOK_PATH", "UPLOAD_DIR", "QUERY_TIMEOUT", "RAW_SQL_FRAGMENTS",
    "MAX_UPLOAD_BYTES", "ALLOWED_ORIGINS", "LOG_LEVEL"]

/-- The files that a text describes, none when it is no document. -/
def filesOf (text : String) : Except Failure Files :=
  match Json.read text with
  | .ok j => Files.ofJson j
  | .error _ => .ok {}

/-- The lines for faults. -/
def faultLines (faults : List Fault) : String :=
  String.join (faults.map fun f => String.intercalate "." f.path ++ ": " ++ f.kind.message ++ "\n")

/-- The lines for a failure. -/
def failureLine (f : Failure) : String :=
  f.name ++ (f.message?.map fun m => ": " ++ m).getD "" ++ "\n"

/-- The exit code and the texts for the two outputs of an outcome. -/
def report : Outcome → Nat × String × String
  | .finished exit out err => (exit, out, err)
  | .stopped .help => (0, "query | load\n", "")
  | .stopped (.usage e) => (Outcome.usageExit, "", "error: " ++ e.message ++ "\n")
  | .refused faults => (1, "", faultLines faults)
  | .failed f => (1, "", failureLine f)

/-- Runs the command that the arguments name. -/
def run (config : Config) (files : Files) : List String → Outcome
  | "query" :: args => (query config files args).1
  | "load" :: args => (load config files args).1
  | args => .stopped (.usage (.unrecognized args))

/-- The outcome for settings, a document of files and arguments. -/
def outcome (env : List (String × String)) (document : String) (args : List String) : Outcome :=
  match Settings.ofEnv env, filesOf document with
  | .error faults, _ => .refused faults
  | _, .error f => .failed f
  | .ok settings, .ok files => run (Config.ofSettings settings) files args

end TableQuery.Program

open TableQuery in
/-- Runs the program. -/
def main (args : List String) : IO UInt32 := do
  let env ← Program.settingNames.filterMapM fun name => do
    return (← IO.getEnv name).map fun value => (name, value)
  let document ← (← IO.getStdin).readToEnd
  let (exit, out, err) := Program.report (Program.outcome env document args)
  IO.print out
  IO.eprint err
  return exit.toUInt32
