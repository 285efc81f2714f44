import TableQuery.Binary64.Digits
import TableQuery.Text.Blank
import TableQuery.Text.Casing

/-!
# Reading numbers

Grammars of number texts, over the decimal digits of every script. `number?` is
the plain grammar of cell texts, with or without thousands separators; its
results are always finite. `ofText?` also reads underscores between digits and
the names of the infinities and of the undefined result.
-/

namespace TableQuery.Binary64

open TableQuery.Text

/-- A sign at the start of a text and what follows it. -/
def splitSign : List Char → Bool × List Char
  | '+' :: s => (false, s)
  | '-' :: s => (true, s)
  | s => (false, s)

/-- The integer that an exponent text denotes, sign included. -/
def exponent? (s : List Char) : Option Int :=
  let (neg, ds) := splitSign s
  if !ds.isEmpty && ds.all isDigit then
    let n : Int := digitsValue ds
    some (if neg then -n else n)
  else none

/-- The exponent at the end of a number; without one it is zero. -/
def tailExponent? : List Char → Option Int
  | [] => some 0
  | c :: s => if c == 'e' || c == 'E' then exponent? s else none

/-- The digits on both sides of the point of an unsigned number, and its
exponent. One side must have a digit. -/
def decimalParts? (s : List Char) : Option (List Char × List Char × Int) :=
  let whole := s.takeWhile isDigit
  match s.dropWhile isDigit with
  | '.' :: rest =>
    let fraction := rest.takeWhile isDigit
    if whole.isEmpty && fraction.isEmpty then none
    else (tailExponent? (rest.dropWhile isDigit)).map fun e => (whole, fraction, e)
  | rest =>
    if whole.isEmpty then none
    else (tailExponent? rest).map fun e => (whole, [], e)

/-- The number with the given digits around the point, times a power of ten. -/
def ofParts (negative : Bool) (whole fraction : List Char) (exponent : Int) : Binary64 :=
  ofDecimal negative (digitsValue (whole ++ fraction)) (exponent - fraction.length)

/-- A decimal number with an optional sign, fraction and exponent. -/
def decimal? (s : List Char) : Option Binary64 :=
  let (neg, body) := splitSign s
  (decimalParts? body).map fun (whole, fraction, e) => ofParts neg whole fraction e

/-- A decimal number with an optional sign, fraction and exponent. -/
def isDecimal (s : List Char) : Bool :=
  (decimalParts? (splitSign s).2).isSome

/-- Groups of three digits, each after a comma. -/
def isGroups : List Char → Bool
  | [] => true
  | ',' :: a :: b :: c :: s => isDigit a && isDigit b && isDigit c && isGroups s
  | _ => false

/-- One to three digits, one or more groups of three after commas, and an
optional fraction; a sign may stand in front. -/
def isGrouped (s : List Char) : Bool :=
  let body := (splitSign s).2
  let lead := body.takeWhile isDigit
  let rest := body.dropWhile isDigit
  let groups := rest.takeWhile (· != '.')
  let lengthOk := 1 ≤ lead.length && lead.length ≤ 3
  lengthOk && !groups.isEmpty && isGroups groups &&
    match rest.dropWhile (· != '.') with
    | [] => true
    | _ :: fraction => !fraction.isEmpty && fraction.all isDigit

/-- The text of a number without thousands separators. -/
def ungrouped (s : List Char) : List Char :=
  if isGrouped s then s.filter (· != ',') else s

/-- The finite number that a text denotes, white space around it allowed. -/
def number? (s : String) : Option Binary64 :=
  match decimal? (ungrouped (trimChars s)) with
  | some x => if x.isFinite then some x else none
  | none => none

/-- Underscores stand only between two digits. -/
def underscoresOk : Char → List Char → Bool
  | prev, [] => prev != '_'
  | prev, c :: s =>
    (if c == '_' then isDigit prev else if prev == '_' then isDigit c else true) &&
      underscoresOk c s

/-- A text in lower case, ASCII letters only. -/
def asciiLower (s : List Char) : List Char :=
  s.map Char.toLower

/-- The infinities and the undefined result by name, in any case. -/
def named? (s : List Char) : Option Binary64 :=
  let (neg, body) := splitSign s
  let name := String.ofList (asciiLower body)
  if name == "inf" || name == "infinity" then some (.infinite neg)
  else if name == "nan" then some .nan
  else none

/-- Any number a text denotes, white space around it allowed. -/
def ofText? (s : String) : Option Binary64 :=
  let t := trimChars s
  match named? t with
  | some x => some x
  | none =>
    if underscoresOk ' ' t then decimal? (t.filter (· != '_')) else none

/-- The integer that a text denotes: an optional sign, digits with single
underscores between them, and white space around. -/
def intOfText? (s : String) : Option Int :=
  let (neg, body) := splitSign (trimChars s)
  if underscoresOk ' ' body then
    let ds := body.filter (· != '_')
    if !ds.isEmpty && ds.all isDigit then
      let n : Int := digitsValue ds
      some (if neg then -n else n)
    else none
  else none

end TableQuery.Binary64
