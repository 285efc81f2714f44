import TableQuery.Fault
import TableQuery.Json.Reader

/-!
# Integers in documents

Integers are read from whole numbers, from truth values, from numbers without a
fraction and from texts. A text may have a sign, zeros in front, single underscores
between digits and a fraction of zeros. Which texts are read is the business of
whoever reads documents, so it is a parameter of `ofJson`; `read` is the reader that
the program uses.
-/

namespace TableQuery.IntegerText

open TableQuery.Text

/-- White space around an integer text. -/
def isSpace (c : Char) : Bool :=
  isBlank c && !(28 ≤ c.toNat && c.toNat ≤ 31)

/-- The characters of an integer after its first zero: further zeros and underscores
are dropped, one zero stays in front of a point or at the end. `last` is the
character before. -/
def dropZeros (last : Char) : List Char → Option (List Char)
  | [] => some [last]
  | c :: s =>
    if c == '0' || c == '_' then dropZeros c s
    else if isAsciiDigit c || c == '-' then some (c :: s)
    else if c == '.' then some (last :: c :: s)
    else none

/-- An integer text without zeros in front. -/
def stripZeros : List Char → Option (List Char)
  | [] => none
  | c :: s =>
    if c == '0' then dropZeros c s
    else if isAsciiDigit c then some (c :: s)
    else none

/-- An integer text without its plus sign and without zeros in front. -/
def stripFront : List Char → Option (List Char)
  | '+' :: s => stripZeros s
  | '-' :: s => (stripZeros s).map ('-' :: ·)
  | s => stripZeros s

/-- An integer text without a fraction of zeros. -/
def stripFraction (s : List Char) : List Char :=
  match s.dropWhile (· != '.') with
  | [] => s
  | _ :: fraction =>
    if !fraction.isEmpty && fraction.all (· == '0') then s.takeWhile (· != '.') else s

/-- Two underscores stand side by side. -/
def hasDoubleUnderscore : List Char → Bool
  | '_' :: '_' :: _ => true
  | _ :: s => hasDoubleUnderscore s
  | [] => false

/-- An integer text without underscores between its digits. -/
def stripUnderscores (s : List Char) : List Char :=
  if ['_'].isPrefixOf s || ['_'].isSuffixOf s || hasDoubleUnderscore s then s
  else s.filter (· != '_')

/-- The longest integer text that is read. -/
def maxLength : Nat := 4300

/-- The integer that a cleaned text denotes: digits without a zero in front, and
possibly a minus sign. -/
def readClean (s : List Char) : Checked Int :=
  let negative := ['-'].isPrefixOf s
  let body := if negative then s.drop 1 else s
  let run := body.takeWhile isAsciiDigit
  if maxLength < run.length + (if negative then 1 else 0) then .refuse .integerTooLarge
  else if Json.wholeDigits body == body && !body.isEmpty then
    let n : Int := digitsValue body
    .ok (if negative then -n else n)
  else .refuse .integerUnread

/-- The integer that a text denotes. -/
def read (s : String) : Checked Int :=
  match stripFront (stripBy isSpace s.toList) with
  | none => .refuse .integerUnread
  | some body => readClean (stripUnderscores (stripFraction body))

/-- The integer of a number, which must have no fraction and lie within 64 bits. -/
def ofNumber (x : Binary64) : Checked Int :=
  if !x.isFinite then .refuse .notFinite
  else
    match x.toInt? with
    | none => .refuse .integerFractional
    | some n => if -(twoPow 63 : Int) < n ∧ n < twoPow 63 then .ok n else .refuse .integerTooLarge

/-- The integer that a JSON value denotes, with a reader for texts. -/
def ofJson (readText : String → Checked Int) : Json → Checked Int
  | .bool b => .ok (if b then 1 else 0)
  | .int n => .ok n
  | .float x => ofNumber x
  | .text s => readText s
  | _ => .refuse .notInteger

/-- A count: an integer that is not negative. -/
def countOfJson (readText : String → Checked Int) (j : Json) : Checked Nat :=
  match ofJson readText j with
  | .error fs => .error fs
  | .ok n => if n < 0 then .refuse .negative else .ok n.toNat

end TableQuery.IntegerText
