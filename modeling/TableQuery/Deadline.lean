import TableQuery.Binary64.Digits
import TableQuery.Failure

/-!
# Deadlines

A query may be limited to a number of seconds. Zero and the undefined number set no
limit. The limit is looked at once the base sheet is loaded; how long that took is up
to the machine, so the time comes with the deadline.
-/

namespace TableQuery

/-- A number of seconds as it was given. -/
inductive Seconds
  | whole (n : Int)
  | real (x : Binary64)

namespace Seconds

/-- The text of a number of seconds. -/
def text : Seconds → String
  | .whole n => Binary64.intText n
  | .real x => x.literal

end Seconds

/-- A limit, and the microseconds that loading took. -/
structure Deadline where
  limit : Seconds
  elapsed : Nat

namespace Deadline

/-- The deadline of a limit, when loading takes so many microseconds. -/
def of (limit : Option Seconds) (elapsed : Nat) : Option Deadline :=
  limit.map fun seconds => ⟨seconds, elapsed⟩

/-- The limit has passed once a sheet is loaded. -/
def isPassed (d : Deadline) : Bool :=
  match d.limit with
  | .whole n => n != 0 && n * 1000000 < d.elapsed
  | .real x =>
    x.rank != 0 && !x.isNan && x.rank * 1000000 < d.elapsed * Binary64.unitsPerOne

/-- The stage after which a limit is looked at. -/
def loading : String := "load"

end Deadline

/-- Refuses to go on when a limit has passed. -/
def checkDeadline : Option Deadline → Except QueryError Unit
  | none => .ok ()
  | some d =>
    if d.isPassed then .error (.deadlinePassed d.limit.text Deadline.loading) else .ok ()

@[simp] theorem checkDeadline_none : checkDeadline none = .ok () := rfl

end TableQuery
