import TableQuery.CommandLine.Arguments
import TableQuery.Failure
import TableQuery.Fault

/-!
# Outcomes of commands

A command ends with an exit code and what it has printed, or it stops before: for its
help, for wrong arguments, for a request with faults, or for a failure that it does not
report itself.
-/

namespace TableQuery.CommandLine

/-- How a command ends. -/
inductive Outcome
  | finished (exit : Nat) (out : String) (err : String)
  | stopped (s : Stop)
  | refused (faults : List Fault)
  | failed (f : Failure)

namespace Outcome

/-- The exit code for wrong arguments. -/
def usageExit : Nat := 2

/-- A command that prints to the error output and reports an error. -/
def complaint (err : String) : Outcome :=
  .finished 1 "" err

end Outcome

end TableQuery.CommandLine
