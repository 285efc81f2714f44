import TableQuery.Calendar.Timestamp
import TableQuery.Datum
import TableQuery.Text.Split

/-!
# Column types

The types of database columns, the values they hold, and how a text is read as one of
them. Comparison is by value; undefined numbers are equal to each other and above all
others, and texts are ordered by their bytes.
-/

namespace TableQuery

open TableQuery.Text TableQuery.Calendar

/-- The type of a column. -/
inductive ColumnType
  | integer (bits : Nat)
  | double
  | varchar
  | date
  | timestamp
  | time
  | boolean
  | decimal (width scale : Nat)
  deriving DecidableEq

namespace ColumnType

/-- The type with a name. -/
def ofName? (name : String) : Option ColumnType :=
  match (String.ofList (name.toList.map Char.toUpper)) with
  | "TINYINT" => some (.integer 8)
  | "SMALLINT" => some (.integer 16)
  | "INTEGER" | "INT" => some (.integer 32)
  | "BIGINT" => some (.integer 64)
  | "HUGEINT" => some (.integer 128)
  | "DOUBLE" | "FLOAT" | "REAL" => some .double
  | "VARCHAR" | "TEXT" | "STRING" => some .varchar
  | "DATE" => some .date
  | "TIMESTAMP" | "DATETIME" => some .timestamp
  | "TIME" => some .time
  | "BOOLEAN" | "BOOL" => some .boolean
  | upper =>
    if startsWith "DECIMAL(" upper || startsWith "NUMERIC(" upper then
      match (cut ',' ((upper.toList.drop 8).filter (· != ')'))).map digitsValue with
      | [width, scale] => some (.decimal width scale)
      | [width] => some (.decimal width 0)
      | _ => none
    else if upper == "DECIMAL" || upper == "NUMERIC" then some (.decimal 18 3)
    else none

/-- A number by its sign, the digits around its point, and an exponent. -/
structure NumberText where
  negative : Bool
  whole : List Char
  fraction : List Char
  exponent : Int

/-- The parts of a number text, with white space around it. -/
def numberText? (s : String) : Option NumberText :=
  let body := stripBy isBlank s.toList
  let (negative, digits) := Binary64.splitSign body
  let plain := digits.filter (· != '_')
  if !Binary64.underscoresOk ' ' digits || !plain.all (fun c => c.toNat < 128) then none
  else (Binary64.decimalParts? plain).map fun (whole, fraction, e) => ⟨negative, whole, fraction, e⟩

/-- A number rounded to a number of decimal places, a half away from zero; the result
counts units of the last place. -/
def NumberText.scaled (t : NumberText) (places : Nat) : Int :=
  let n := digitsValue (t.whole ++ t.fraction)
  let e := t.exponent - t.fraction.length + places
  let m := if 0 ≤ e then n * tenPow (min e.toNat 400)
    else
      let den := tenPow (min (-e).toNat 400)
      (2 * n + den) / (2 * den)
  if t.negative then -m else m

/-- An integer of a number of bits. -/
def fitsBits (bits : Nat) (n : Int) : Bool :=
  -(twoPow (bits - 1) : Int) ≤ n && n < twoPow (bits - 1)

/-- One or two digits at the start of a text. -/
def shortNumber? (s : List Char) : Option (Nat × List Char) :=
  match s with
  | a :: b :: rest =>
    if isAsciiDigit a then
      if isAsciiDigit b then some (digitsValue [a, b], rest) else some (digitsValue [a], b :: rest)
    else none
  | [a] => if isAsciiDigit a then some (digitsValue [a], []) else none
  | [] => none

/-- The day at the start of a text: year, month and day between equal marks. -/
def day? (s : List Char) : Option (Date × List Char) :=
  let year := s.takeWhile isAsciiDigit
  match s.dropWhile isAsciiDigit with
  | mark :: rest =>
    if year.isEmpty || !(['-', '/', ' ', '\\'].contains mark) then none
    else
      match shortNumber? rest with
      | some (month, m :: rest) =>
        if m != mark then none
        else
          match shortNumber? rest with
          | some (day, rest) => (Date.of? (digitsValue year) month day).map (·, rest)
          | none => none
      | _ => none
  | [] => none

/-- The time at the start of a text: hours, minutes and possibly seconds with a
fraction. -/
def clock? (s : List Char) : Option (TimeOfDay × List Char) :=
  match shortNumber? s with
  | some (hour, ':' :: rest) =>
    match shortNumber? rest with
    | some (minute, ':' :: rest) =>
      match shortNumber? rest with
      | some (second, '.' :: rest) =>
        let ds := rest.takeWhile isAsciiDigit
        let micro := digitsValue (ds.take 6) * tenPow (6 - min ds.length 6)
        (TimeOfDay.of? hour minute second micro).map (·, rest.dropWhile isAsciiDigit)
      | some (second, rest) => (TimeOfDay.of? hour minute second 0).map (·, rest)
      | none => none
    | some (minute, rest) => (TimeOfDay.of? hour minute 0 0).map (·, rest)
    | none => none
  | _ => none

/-- The day that a text denotes; other characters than digits may follow it. -/
def readDate? (s : String) : Option Date :=
  match day? (s.toList.dropWhile isBlank) with
  | some (d, rest) => if (rest.head?.map isAsciiDigit).getD false then none else some d
  | none => none

/-- The timestamp that a text denotes: a day, possibly followed by a time. -/
def readTimestamp? (s : String) : Option Timestamp :=
  match day? (stripBy isBlank s.toList) with
  | some (d, []) => some (.ofDate d)
  | some (d, mark :: rest) =>
    if mark == ' ' || mark == 'T' then
      match clock? rest with
      | some (t, []) => some ⟨d, t⟩
      | some (t, ['Z']) => some ⟨d, t⟩
      | _ => none
    else none
  | none => none

/-- The time that a text denotes. -/
def readTime? (s : String) : Option TimeOfDay :=
  match clock? (stripBy isBlank s.toList) with
  | some (t, []) => some t
  | _ => none

/-- The truth value that a text denotes. -/
def readBoolean? (s : String) : Option Bool :=
  match String.ofList ((stripBy isBlank s.toList).map Char.toLower) with
  | "true" | "t" | "1" | "yes" | "y" => some true
  | "false" | "f" | "0" | "no" | "n" => some false
  | _ => none

/-- The double that a text denotes. -/
def readDouble? (s : String) : Option Binary64 :=
  let body := stripBy isBlank s.toList
  match Binary64.named? body with
  | some x => some x
  | none =>
    (numberText? s).map fun t => Binary64.ofParts t.negative t.whole t.fraction t.exponent

/-- The value of a type that a text denotes. -/
def readText? (type : ColumnType) (s : String) : Option Datum :=
  match type with
  | .varchar => some (.text s)
  | .integer bits =>
    match numberText? s with
    | some t => if fitsBits bits (t.scaled 0) then some (.int (t.scaled 0)) else none
    | none => none
  | .double => (readDouble? s).map .float
  | .date => (readDate? s).map .date
  | .timestamp => (readTimestamp? s).map fun t => .datetime t none
  | .time => (readTime? s).map fun t => .time t none
  | .boolean => (readBoolean? s).map .bool
  | .decimal width scale =>
    match numberText? s with
    | some t =>
      let n := t.scaled scale
      if n.natAbs < tenPow width then some (.decimal (.finite (n < 0) n.natAbs (-scale))) else none
    | none => none

/-- The text of a stored value as it is cast. -/
def castText : Datum → String
  | .bool b => if b then "true" else "false"
  | d => d.plain

/-- A value as a column of the type stores it. A missing value stays missing. -/
def store? (type : ColumnType) : Datum → Option Datum
  | .null => some .null
  | .date d =>
    match type with
    | .timestamp => some (.datetime (.ofDate d) none)
    | _ => type.readText? d.text
  | .datetime t o =>
    match type with
    | .timestamp => some (.datetime ((t.toUniversal (o.getD .zero)).toOption.getD t) none)
    | .date => some (.date t.date)
    | .time => some (.time t.time none)
    | _ => type.readText? t.text
  | .bool b =>
    match type with
    | .boolean => some (.bool b)
    | .varchar => some (.text (castText (.bool b)))
    | _ => type.readText? (if b then "1" else "0")
  | d => type.readText? (castText d)

/-- The number of a numeric value, as a fraction. -/
def ratio? : Datum → Option (Int × Nat)
  | .int n => some (n, 1)
  | .bool b => some (if b then 1 else 0, 1)
  | .decimal (.finite neg n e) =>
    let m : Int := if neg then -n else n
    if 0 ≤ e then some (m * tenPow e.toNat, 1) else some (m, tenPow (-e).toNat)
  | .float x =>
    match x with
    | .finite .. => some (x.rank, Binary64.unitsPerOne)
    | _ => none
  | _ => none

/-- The place of a number that is no fraction among the numbers: below, or above, or
above everything. -/
def specialRank : Datum → Int
  | .float (.infinite true) => -1
  | .float (.infinite false) => 1
  | .float .nan => 2
  | _ => 0

/-- The order of two numbers. -/
def compareNumbers (a b : Datum) : Ordering :=
  match ratio? a, ratio? b with
  | some (n, d), some (m, e) => compare (n * e) (m * d)
  | _, _ => compare (specialRank a) (specialRank b)

/-- The bytes of a text. -/
def bytesOf (s : String) : List Nat :=
  s.toUTF8.toList.map UInt8.toNat

/-- The order of two values of one type, neither of them missing. -/
def compareValues : Datum → Datum → Ordering
  | .text a, .text b => compare (bytesOf a) (bytesOf b)
  | .date a, .date b => compare a.index b.index
  | .datetime a _, .datetime b _ => a.compare b
  | .date a, .datetime b _ => (Timestamp.ofDate a).compare b
  | .datetime a _, .date b => a.compare (.ofDate b)
  | .time a _, .time b _ => compare a.micros b.micros
  | a, b => compareNumbers a b

/-- A type whose values are numbers. -/
def isNumeric : ColumnType → Bool
  | .integer _ | .double | .decimal .. | .boolean => true
  | _ => false

end ColumnType

end TableQuery
