import TableQuery.Datum

/-!
# Values as a driver delivers them

A driver may deliver values of any type. A value of a type that is converted is given by
itself, and a value of another type by what it prints: a text, or a fault when it cannot
be printed.
-/

namespace TableQuery

open TableQuery.Text TableQuery.Calendar

/-- Why a value cannot be printed: the name of the fault and its wording. -/
structure PrintFault where
  name : String
  message : String
  deriving DecidableEq

/-- A value as a driver delivers it. -/
inductive Native
  | null
  | text (s : String)
  | bool (b : Bool)
  | int (n : Int)
  | float (x : Binary64)
  | decimal (d : Decimal)
  | date (d : Date)
  | datetime (t : Timestamp) (offset : Option Offset)
  | other (printed : Except PrintFault String)

namespace Datum

/-- The most digits of an integer that is printed. -/
def maxDigits : Nat := 4300

mutual

/-- No integer of a value is too long to be printed. -/
def isPrintable : Datum → Bool
  | .int n => n.natAbs < tenPow maxDigits
  | .list items => arePrintable items
  | _ => true

/-- No integer of the elements of a list is too long to be printed. -/
def arePrintable : List Datum → Bool
  | [] => true
  | item :: items => item.isPrintable && arePrintable items

end

/-- The fault of an integer that is too long to be printed. -/
def digitsFault : PrintFault where
  name := "ValueError"
  message := "Exceeds the limit (4300 digits) for integer string conversion; " ++
    "use sys.set_int_max_str_digits() to increase the limit"

/-- What a value prints. -/
def printed (d : Datum) : Except PrintFault String :=
  if d.isPrintable then .ok d.plain else .error digitsFault

/-- The value of stored data. -/
def native : Datum → Native
  | .null => .null
  | .text s => .text s
  | .bool b => .bool b
  | .int n => .int n
  | .float x => .float x
  | .decimal d => .decimal d
  | .date d => .date d
  | .datetime t o => .datetime t o
  | d => .other d.printed

end Datum

end TableQuery
