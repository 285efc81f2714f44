import TableQuery.Text.Casing
import TableQuery.Text.Digit
import TableQuery.Text.Split

/-!
# Names of sheet tables

A table takes its name from its sheet: every character other than an ASCII letter, a
digit or an underscore becomes an underscore, and a name that could be read as a cell
reference gets a letter in front. Names are unique in a workbook without regard to
case; a taken name is numbered from two on.
-/

namespace TableQuery.TableName

open TableQuery.Text

/-- A character of a table name. -/
def isNameChar (c : Char) : Bool :=
  isAsciiLetter c || isAsciiDigit c || c == '_'

/-- The name of a sheet with underscores for all other characters. -/
def cleaned (s : List Char) : List Char :=
  s.map fun c => if isNameChar c then c else '_'

/-- One to three letters and a number: a cell by column and row. -/
def isCell (s : List Char) : Bool :=
  let letters := s.takeWhile isAsciiLetter
  let digits := s.dropWhile isAsciiLetter
  1 ≤ letters.length && letters.length ≤ 3 && !digits.isEmpty && digits.all isAsciiDigit

/-- A letter in either case. -/
def isLetter (letter c : Char) : Bool :=
  c.toUpper == letter

/-- A column by number: `C` and digits, or nothing. -/
def isColumnEnd : List Char → Bool
  | [] => true
  | c :: s => isLetter 'C' c && s.all isAsciiDigit

/-- A row or a column by number, or a cell by both. -/
def isNumbered : List Char → Bool
  | [] => false
  | c :: s =>
    (isLetter 'R' c && isColumnEnd (s.dropWhile isAsciiDigit)) ||
      (isLetter 'C' c && s.all isAsciiDigit)

/-- A name that could be read as a cell reference. -/
def isReference (s : List Char) : Bool :=
  isCell s || isNumbered s

/-- A name starts with a letter or an underscore. -/
def startsWell : List Char → Bool
  | [] => false
  | c :: _ => isAsciiLetter c || c == '_'

/-- The name that a sheet gives its table when no other table has it. -/
def base (sheet : String) : List Char :=
  let name := cleaned sheet.toList
  let name := if name.isEmpty then "Result".toList else name
  if !startsWell name || isReference name then 'T' :: '_' :: name else name

/-- The name with a number after it. -/
def numbered (name : List Char) (n : Nat) : List Char :=
  name ++ '_' :: Nat.toDigits 10 n

/-- A name is among the taken ones, without regard to case. -/
def isTaken (taken : List String) (name : List Char) : Bool :=
  taken.any fun t => fold t == fold (String.ofList name)

/-- The first number from `n` on under which a name is free, looking at `fuel`
numbers. -/
def firstFree (taken : List String) (name : List Char) : Nat → Nat → List Char
  | 0, n => numbered name n
  | fuel + 1, n =>
    if isTaken taken (numbered name n) then firstFree taken name fuel (n + 1)
    else numbered name n

/-- The name of the table of a sheet beside the taken names. One more number than
there are taken names is enough. -/
def choose (taken : List String) (sheet : String) : String :=
  let name := base sheet
  String.ofList <|
    if isTaken taken name then firstFree taken name taken.length 2 else name

end TableQuery.TableName
