import TableQuery.Calendar.Timestamp
import TableQuery.Text.Blank

/-!
# Reading timestamps in the customary layouts

A layout is a sequence of fields, marks and blanks. `layouts` lists the layouts
of cell texts in the order in which they are tried; `readLayouts?` gives the
timestamp of the first that fits the whole text.
-/

namespace TableQuery.Calendar

open TableQuery.Text

/-- A part of a layout. -/
inductive Part
  | month
  | day
  | year
  | hour
  | hourOfHalf
  | minute
  | second
  | half
  | monthName
  | monthShort
  | mark (c : Char)
  | blank
  deriving DecidableEq

/-- The parts that a text consists of. -/
abbrev Layout := List Part

def monthNames : List String :=
  ["january", "february", "march", "april", "may", "june", "july", "august", "september",
    "october", "november", "december"]

/-- The layouts of cell texts, in the order in which they are tried. -/
def layouts : List Layout :=
  let monthDayYear : Layout := [.month, .mark '/', .day, .mark '/', .year]
  let yearMonthDay : Layout := [.year, .mark '/', .month, .mark '/', .day]
  [monthDayYear,
    monthDayYear ++ [.blank, .hour, .mark ':', .minute],
    monthDayYear ++ [.blank, .hour, .mark ':', .minute, .mark ':', .second],
    monthDayYear ++ [.blank, .hourOfHalf, .mark ':', .minute, .blank, .half],
    monthDayYear ++ [.blank, .hourOfHalf, .mark ':', .minute, .mark ':', .second, .blank, .half],
    yearMonthDay,
    yearMonthDay ++ [.blank, .hour, .mark ':', .minute, .mark ':', .second],
    [.day, .blank, .monthShort, .blank, .year],
    [.day, .blank, .monthName, .blank, .year],
    [.monthShort, .blank, .day, .mark ',', .blank, .year],
    [.monthName, .blank, .day, .mark ',', .blank, .year]]

/-- The fields of a timestamp as far as they have been read. -/
structure Fields where
  year : Nat := 1900
  month : Nat := 1
  day : Nat := 1
  hour : Nat := 0
  minute : Nat := 0
  second : Nat := 0
  afternoon : Option Bool := none
  deriving DecidableEq

namespace Fields

/-- The hour of the day: with halves, twelve is the hour zero of its half. -/
def hourOfDay (f : Fields) : Nat :=
  match f.afternoon with
  | none => f.hour
  | some pm => f.hour % 12 + if pm then 12 else 0

/-- The timestamp with these fields. -/
def timestamp? (f : Fields) : Option Timestamp :=
  Timestamp.of? f.year f.month f.day f.hourOfDay f.minute f.second 0

end Fields

/-- A digit of the Latin script within bounds. -/
def between (low high : Nat) (c : Char) : Bool :=
  48 + low ≤ c.toNat && c.toNat ≤ 48 + high

/-- The numbers of two digits and of one digit that a text starts with, the longer
one first. -/
def numbers (two : Char → Char → Bool) (one : Char → Bool) : List Char → List (Nat × List Char)
  | [] => []
  | [a] => if one a then [(digitsValue [a], [])] else []
  | a :: b :: s =>
    (if two a b then [(digitsValue [a, b], s)] else []) ++
      if one a then [(digitsValue [a], b :: s)] else []

/-- Months and the hours of a half: one to twelve. -/
def upToTwelve (a b : Char) : Bool :=
  between 1 1 a && between 0 2 b || between 0 0 a && between 1 9 b

/-- The name among `names` that a text starts with, in any case, and its number
counted from one. -/
def name? (names : List String) (s : List Char) : Option (Nat × List Char) :=
  (names.zipIdx 1).findSome? fun (name, n) =>
    if name.toList.isPrefixOf (s.map Char.toLower) then some (n, s.drop name.length) else none

/-- The ways in which a part reads the start of a text, each with the fields after
it and the text that is left. -/
def Part.readings (f : Fields) (s : List Char) : Part → List (Fields × List Char)
  | .month =>
    (numbers upToTwelve (between 1 9) s).map fun (n, rest) => ({ f with month := n }, rest)
  | .day =>
    let two a b := between 3 3 a && between 0 1 b || between 1 2 a && isDigit b ||
      between 0 0 a && between 1 9 b
    let spaced := match s with
      | ' ' :: rest => numbers (fun _ _ => false) (between 1 9) rest
      | _ => []
    (numbers two (between 1 9) s ++ spaced).map fun (n, rest) => ({ f with day := n }, rest)
  | .year =>
    let ds := s.take 4
    if ds.length = 4 && ds.all isDigit then [({ f with year := digitsValue ds }, s.drop 4)] else []
  | .hour =>
    let two a b := between 2 2 a && between 0 3 b || between 0 1 a && isDigit b
    (numbers two isDigit s).map fun (n, rest) => ({ f with hour := n }, rest)
  | .hourOfHalf =>
    (numbers upToTwelve (between 1 9) s).map fun (n, rest) => ({ f with hour := n }, rest)
  | .minute =>
    let two a b := between 0 5 a && isDigit b
    (numbers two isDigit s).map fun (n, rest) => ({ f with minute := n }, rest)
  | .second =>
    let two a b := between 6 6 a && between 0 1 b || between 0 5 a && isDigit b
    (numbers two isDigit s).map fun (n, rest) => ({ f with second := n }, rest)
  | .half =>
    match name? ["am", "pm"] s with
    | some (n, rest) => [({ f with afternoon := some (n == 2) }, rest)]
    | none => []
  | .monthName =>
    match name? monthNames s with
    | some (n, rest) => [({ f with month := n }, rest)]
    | none => []
  | .monthShort =>
    match name? (monthNames.map fun name => String.ofList (name.toList.take 3)) s with
    | some (n, rest) => [({ f with month := n }, rest)]
    | none => []
  | .mark c =>
    match s with
    | [] => []
    | d :: rest => if c = d then [(f, rest)] else []
  | .blank =>
    match s with
    | [] => []
    | c :: rest => if isBlank c then [(f, rest.dropWhile isBlank)] else []

/-- Reads a whole text in a layout. -/
def readParts? : Layout → Fields → List Char → Option Fields
  | [], f, s => if s.isEmpty then some f else none
  | part :: layout, f, s =>
    (part.readings f s).findSome? fun (g, rest) => readParts? layout g rest

/-- The timestamp that a text denotes in a layout. -/
def readLayout? (layout : Layout) (s : List Char) : Option Timestamp :=
  (readParts? layout {} s).bind Fields.timestamp?

/-- The timestamp that a text denotes in the first layout that fits it. -/
def readLayouts? (s : List Char) : Option Timestamp :=
  layouts.findSome? fun layout => readLayout? layout s

end TableQuery.Calendar
