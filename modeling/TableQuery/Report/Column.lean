import TableQuery.Binary64.Digits
import TableQuery.Text.Split
import TableQuery.Value.Basic

/-!
# Columns of a report

The cells of a column are shown alike. A column of integers that fit a machine word
shows them in full, a column of numbers shows them with a common number of decimal
places or with exponents, and every other column shows each cell on its own.
-/

namespace TableQuery.Report

open TableQuery.Text

/-- How the cells of a column are shown. -/
inductive ColumnKind
  | integers
  | numbers
  | mixed
  deriving DecidableEq

/-- What the cells of a column have been so far. `negative` and `large` tell that an
integer needs a signed and an unsigned word. -/
structure Seen where
  missing : Bool := false
  fraction : Bool := false
  integer : Bool := false
  negative : Bool := false
  large : Bool := false
  other : Bool := false

namespace Seen

/-- One more integer. Once a cell is missing, integers count as numbers of any
size. -/
def addInteger (s : Seen) (n : Int) : Seen :=
  let s := { s with integer := true }
  if s.missing then s
  else
    let negative := s.negative || (-(twoPow 63 : Int) ≤ n && n < 0)
    let large := s.large || (twoPow 63 ≤ n && n < twoPow 64)
    { s with
      negative
      large
      other := s.other || (negative && large) || n < -(twoPow 63 : Int) || twoPow 64 ≤ n }

/-- One more cell. -/
def add (s : Seen) : Primitive → Seen
  | .null => { s with missing := true }
  | .text _ => { s with other := true }
  | .float _ => { s with fraction := true }
  | .int n => s.addInteger n

/-- The kind of a column of such cells. -/
def kind (s : Seen) : ColumnKind :=
  if s.other then .mixed
  else if s.fraction then .numbers
  else if s.integer then (if s.missing then .numbers else .integers)
  else .mixed

end Seen

/-- The kind of a column. A cell other than a number makes it mixed, whatever comes
after. -/
def kindOf (cells : List Primitive) : ColumnKind :=
  (cells.foldl (fun s cell => if s.other then s else s.add cell) ({} : Seen)).kind

/-- The number of decimal places of a report. -/
def places : Nat := 6

/-- A cell of a column of numbers; a missing one is undefined. -/
def numberOf : Primitive → Binary64
  | .int n => Binary64.ofInt n
  | .float x => x
  | _ => .nan

/-- The text of an undefined number. -/
def undefinedText : String := "NaN"

/-- A number with the decimal places of a report. -/
def fixedText (x : Binary64) : String :=
  if x.isNan then undefinedText else x.fixed places

/-- A number with an exponent. -/
def exponentText (x : Binary64) : String :=
  if x.isNan then undefinedText else x.exponential places

/-- The zeros at the end of a text. -/
def zerosAtEnd (s : String) : Nat :=
  (s.toList.reverse.takeWhile (· == '0')).length

/-- A text without its last characters; a point at the end gets a zero. -/
def shortened (n : Nat) (s : String) : String :=
  let t := String.ofList (s.toList.take (s.length - n))
  if endsWith "." t then t ++ "0" else t

/-- Texts of numbers without the zeros that all texts with a point share. -/
def trimZeros (texts : List String) : List String :=
  let hasPoint (s : String) : Bool := s.toList.contains '.'
  match (texts.filter hasPoint).map zerosAtEnd with
  | [] => texts
  | n :: ns => texts.map fun s => if hasPoint s then shortened (ns.foldl min n) s else s

/-- A number is so small that the decimal places show none of its digits. -/
def isSmall (x : Binary64) : Bool :=
  let least := (Binary64.ofDecimal false 1 (-(places : Int))).rank
  !x.isNan && x.rank != 0 && x.rank.natAbs < least.natAbs

/-- A number beyond a million. -/
def isLarge (x : Binary64) : Bool :=
  !x.isNan && (Binary64.ofInt 1000000).rank.natAbs < x.rank.natAbs

/-- The longest text of a number without an exponent when there are large numbers. -/
def maxFixedLength : Nat := places + 6

/-- The cells of a column of numbers. -/
def numberTexts (xs : List Binary64) : List String :=
  let fixed := trimZeros (xs.map fixedText)
  let isLong := fixed.any fun s => maxFixedLength < s.length
  if xs.any isSmall || (isLong && xs.any isLarge) then xs.map exponentText else fixed

/-- A text with its line breaks and tabs written as escapes. -/
def escaped (s : String) : String :=
  replaceAll "\n" "\\n" (replaceAll "\r" "\\r" (replaceAll "\t" "\\t" s))

/-- A number in a mixed column: a blank in place of a plus sign, and no zeros at the
end. -/
def looseNumber (x : Binary64) : String :=
  if x.isNan then undefinedText
  else
    let s := x.fixed places
    let signed := if startsWith "-" s then s else " " ++ s
    shortened (zerosAtEnd signed) signed

/-- A cell of a mixed column. -/
def looseText : Primitive → String
  | .null => "None"
  | .text s => escaped s
  | .int n => Binary64.intText n
  | .float x => looseNumber x

/-- The cells of a column of a kind. -/
def cellTexts (kind : ColumnKind) (cells : List Primitive) : List String :=
  match kind with
  | .numbers => numberTexts (cells.map numberOf)
  | _ => cells.map looseText

end TableQuery.Report
