import TableQuery.Calendar.Timestamp
import TableQuery.Decimal
import TableQuery.Text.Quoted

/-!
# Stored data

A `Datum` is a value as a store delivers it: the contents of a database column or
of a sheet cell. `text` is its plain form, `literal` the form it has inside a
printed list.
-/

namespace TableQuery

open TableQuery.Text TableQuery.Calendar

/-- A value as a store delivers it. -/
inductive Datum
  | null
  | text (s : String)
  | bool (b : Bool)
  | int (n : Int)
  | float (x : Binary64)
  | decimal (d : Decimal)
  | date (d : Date)
  | datetime (t : Timestamp) (offset : Option Offset)
  | time (t : TimeOfDay) (offset : Option Offset)
  | duration (micros : Int)
  | bytes (bs : List Nat)
  | uuid (n : Nat)
  | list (items : List Datum)
  deriving Inhabited

namespace Datum

/-- The offset after a time, nothing without one. -/
def offsetText (o : Option Offset) : String :=
  match o with
  | none => ""
  | some o => o.text

/-- A day and a time with a blank between them, and the offset. -/
def datetimeText (t : Timestamp) (o : Option Offset) : String :=
  t.text ++ offsetText o

/-- Days when there are any, then hours, minutes, seconds and fraction. The days
take the sign and the rest counts forward. -/
def durationText (micros : Int) : String :=
  let days := micros / microsPerDay
  let rest := (micros % microsPerDay).toNat
  let clock := Nat.toDigits 10 (rest / 3600000000) ++ ':' :: (padded 2 (rest / 60000000 % 60) ++
    ':' :: (padded 2 (rest / 1000000 % 60) ++ fractionText (rest % 1000000)))
  (if days = 0 then ""
    else Binary64.intText days ++ (if days.natAbs = 1 then " day, " else " days, ")) ++
    String.ofList clock

/-- The digits of an identifier of 128 bits, in groups of 8, 4, 4, 4 and 12. -/
def uuidText (n : Nat) : String :=
  let ds := hexPadded 32 n
  let group (start length : Nat) : List Char := (ds.drop start).take length
  String.ofList (group 0 8 ++ '-' :: (group 8 4 ++ '-' :: (group 12 4 ++ '-' ::
    (group 16 4 ++ '-' :: group 20 12))))

/-- A call with its arguments, as literals of dates and times are written. -/
def call (name : String) (arguments : List String) : String :=
  name ++ "(" ++ String.intercalate ", " arguments ++ ")"

/-- The literal of a duration: its days, seconds and microseconds that are not
zero. -/
def durationLiteral (micros : Int) : String :=
  let days := micros / microsPerDay
  let rest := micros % microsPerDay
  let field (name : String) (n : Int) : List String :=
    if n = 0 then [] else [name ++ "=" ++ Binary64.intText n]
  let fields := field "days" days ++ field "seconds" (rest / 1000000) ++
    field "microseconds" (rest % 1000000)
  call "datetime.timedelta" (if fields.isEmpty then ["0"] else fields)

/-- The literal of an offset as a last argument. -/
def offsetArgument (o : Option Offset) : List String :=
  match o with
  | none => []
  | some o =>
    ["tzinfo=" ++ if o.micros = 0 then "datetime.timezone.utc"
      else call "datetime.timezone" [durationLiteral o.micros]]

/-- The clock fields of a literal: seconds and microseconds only when needed. -/
def clockArguments (t : TimeOfDay) : List String :=
  let fields := [t.hour, t.minute] ++
    (if t.second = 0 ∧ t.micro = 0 then [] else [t.second]) ++
    (if t.micro = 0 then [] else [t.micro])
  fields.map Nat.repr

/-- The calendar fields of a literal. -/
def dateArguments (d : Date) : List String :=
  [d.year, d.month, d.day].map Nat.repr

mutual

/-- The form of a value inside a printed list. -/
def literal : Datum → String
  | .null => "None"
  | .text s => quoted s
  | .bool b => if b then "True" else "False"
  | .int n => Binary64.intText n
  | .float x => x.literal
  | .decimal d => call "Decimal" ["'" ++ d.text ++ "'"]
  | .date d => call "datetime.date" (dateArguments d)
  | .datetime t o =>
    call "datetime.datetime" (dateArguments t.date ++ clockArguments t.time ++ offsetArgument o)
  | .time t o => call "datetime.time" (clockArguments t ++ offsetArgument o)
  | .duration n => durationLiteral n
  | .bytes bs => quotedBytes bs
  | .uuid n => call "UUID" ["'" ++ uuidText n ++ "'"]
  | .list items => "[" ++ String.intercalate ", " (literals items) ++ "]"

/-- The forms of the elements of a list. -/
def literals : List Datum → List String
  | [] => []
  | item :: items => item.literal :: literals items

end

/-- The plain text of a value. -/
def plain : Datum → String
  | .text s => s
  | .decimal d => d.text
  | .date d => d.text
  | .datetime t o => datetimeText t o
  | .time t o => t.text ++ offsetText o
  | .duration n => durationText n
  | .uuid n => uuidText n
  | d => d.literal

/-- The text of a sheet cell. An empty cell has none, truth values are written in
capitals, and whole numbers have no fraction. -/
def cellText : Datum → String
  | .null => ""
  | .bool b => if b then "TRUE" else "FALSE"
  | .float x => x.text
  | d => d.plain

/-- An empty cell, or one that holds nothing but white space. -/
def isBlank : Datum → Bool
  | .null => true
  | .text s => isBlankText s
  | _ => false

@[simp] theorem cellText_text (s : String) : (Datum.text s).cellText = s := rfl

@[simp] theorem cellText_null : Datum.null.cellText = "" := rfl

end Datum

end TableQuery
