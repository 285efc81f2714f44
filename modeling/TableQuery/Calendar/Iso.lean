import TableQuery.Binary64.Power
import TableQuery.Calendar.Timestamp

/-!
# Reading timestamps in the international form

Dates by month and day or by week, with or without hyphens; any one character
between date and time; a time of one to three fields with or without colons, a
fraction after the fields read so far, and an offset or `Z`. Lengths and the room
that is left count the bytes of UTF-8. Where a text ends, the reader sees the
character NUL.
-/

namespace TableQuery.Calendar.Iso

open TableQuery.Text

/-- The number of bytes of a text in UTF-8. -/
def byteLength : List Char → Nat
  | [] => 0
  | c :: s => c.utf8Size + byteLength s

/-- The character at the start of a text, NUL at its end. -/
def headChar : List Char → Char
  | [] => '\x00'
  | c :: _ => c

/-- Reads exactly `n` digits. -/
def digits? : Nat → Nat → List Char → Option (Nat × List Char)
  | 0, acc, s => some (acc, s)
  | _ + 1, _, [] => none
  | n + 1, acc, c :: s =>
    if isAsciiDigit c then digits? n (acc * 10 + (c.toNat - 48)) s else none

/-- The position where the date ends. Compact week dates are recognised by how
many digits stand from the eighth character on. -/
def dateLength (s : List Char) : Nat :=
  let n := byteLength s
  let charAt (i : Nat) : Char := headChar (s.drop i)
  if n = 7 then 7
  else if charAt 4 == '-' then
    if charAt 5 == 'W' then
      if 8 < n && charAt 8 == '-' then
        if 10 < n && isAsciiDigit (charAt 10) then 8 else 10
      else 8
    else 10
  else if charAt 4 == 'W' then
    let run := (s.drop 7).takeWhile isAsciiDigit
    let pos := 7 + run.length
    if pos < 9 then pos else if pos % 2 = 0 then 7 else 8
  else 8

/-- A date by week: two digits, then possibly the day of the week. -/
def weekDate? (year : Nat) (hyphens : Bool) (lengthLeft : Nat) (s : List Char) :
    Option Date :=
  match digits? 2 0 s with
  | none => none
  | some (week, rest) =>
    if lengthLeft ≤ 2 then Date.ofWeek? year week 1
    else if hyphens && headChar rest != '-' then none
    else
      match digits? 1 0 (if hyphens then rest.drop 1 else rest) with
      | none => none
      | some (day, _) => Date.ofWeek? year week day

/-- A date by month and day that ends where the date ends. -/
def monthDate? (year : Nat) (hyphens : Bool) (lengthLeft : Nat) (s : List Char) :
    Option Date :=
  match digits? 2 0 s with
  | none => none
  | some (month, rest) =>
    if hyphens && headChar rest != '-' then none
    else
      match digits? 2 0 (if hyphens then rest.drop 1 else rest) with
      | none => none
      | some (day, _) =>
        if lengthLeft = (if hyphens then 5 else 4) then Date.of? year month day else none

/-- The date at the start of a text whose date has the given length. -/
def date? (length : Nat) (s : List Char) : Option Date :=
  match digits? 4 0 s with
  | none => none
  | some (year, rest) =>
    let hyphens := headChar rest == '-'
    let body := if hyphens then rest.drop 1 else rest
    let used := if hyphens then 5 else 4
    match body with
    | 'W' :: week => weekDate? year hyphens (length - used - 1) week
    | _ => monthDate? year hyphens (length - used) body

/-- Clock fields: the numbers read, the microseconds, and whether text is left
over. -/
structure Clock where
  fields : List Nat
  micros : Nat
  leftover : Bool

/-- A fraction of `room` or more bytes: six digits count, further ones are
passed over. -/
def fraction? (fields : List Nat) (room : Nat) (s : List Char) : Option Clock :=
  let n := min room 6
  match digits? n 0 s with
  | none => none
  | some (value, rest) =>
    some ⟨fields, value * tenPow (6 - n), headChar (rest.dropWhile isAsciiDigit) != '\x00'⟩

/-- Reads up to `left` more fields of two digits within `room` bytes;
`colons` tells whether colons separate them, once that is known. -/
def clock? : Nat → List Nat → Option Bool → Nat → List Char → Option Clock
  | 0, fields, _, room, s => fraction? fields room s
  | left + 1, fields, colons, room, s =>
    match digits? 2 0 s with
    | none => none
    | some (value, rest) =>
      let fields := fields ++ [value]
      let c := headChar rest
      let colons := colons.getD (c == ':')
      if room ≤ 3 then some ⟨fields, 0, c != '\x00'⟩
      else if colons && c == ':' then clock? left fields (some colons) (room - 3) (rest.drop 1)
      else if c == '.' || c == ',' then fraction? fields (room - 3) (rest.drop 1)
      else if !colons then clock? left fields (some colons) (room - 2) rest
      else none

/-- A character that starts an offset. -/
def startsOffset (c : Char) : Bool :=
  c == '+' || c == '-' || c == 'Z'

/-- The offset at the end of a time. An offset without whole seconds is that of
universal time. -/
def offset? (s : List Char) : Option Offset :=
  match s with
  | [] => none
  | 'Z' :: rest => if headChar rest == '\x00' then some .zero else none
  | sign :: rest =>
    match clock? 3 [] none (byteLength rest) rest with
    | some ⟨fields, micros, false⟩ =>
      let seconds := fields.getD 0 0 * 3600 + fields.getD 1 0 * 60 + fields.getD 2 0
      if seconds = 0 then some .zero
      else
        let total : Int := (seconds * 1000000 + micros : Nat)
        Offset.of? (if sign == '-' then -total else total)
    | _ => none

/-- A time of day and its offset, when it has one. -/
def time? (s : List Char) : Option (TimeOfDay × Option Offset) :=
  let clockChars := s.takeWhile fun c => !startsOffset c
  let rest := s.dropWhile fun c => !startsOffset c
  match clock? 3 [] none (byteLength clockChars) s with
  | none => none
  | some clock =>
    match TimeOfDay.of? (clock.fields.getD 0 0) (clock.fields.getD 1 0)
        (clock.fields.getD 2 0) clock.micros with
    | none => none
    | some t =>
      if rest.isEmpty then (if clock.leftover then none else some (t, none))
      else (offset? rest).map fun o => (t, some o)

/-- A local timestamp and its offset, when it has one. Any one character separates
date and time. -/
def read? (s : List Char) : Option (Timestamp × Option Offset) :=
  if byteLength s < 7 then none
  else
    let n := dateLength s
    match date? n s with
    | none => none
    | some d =>
      match s.drop n with
      | [] => some (.ofDate d, none)
      | _ :: rest => (time? rest).map fun (t, o) => (⟨d, t⟩, o)

end TableQuery.Calendar.Iso
