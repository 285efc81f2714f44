import TableQuery.Failure
import TableQuery.Text.Digit
import TableQuery.Text.Split

/-!
# Comma separated files

`Csv.records` cuts a text into lines of fields. Fields may stand in double quotes,
blank lines are passed over, and a line may end in either line break or both.
`Csv.read` takes the first line for the header and completes short lines.
-/

namespace TableQuery.Csv

open TableQuery.Text

/-- A line of fields and its number in the file. -/
structure Record where
  line : Nat
  fields : List String

/-- Where the reader stands: at the start of a line, at the start of a field, inside
a plain field, inside a quoted one, or behind a quote inside one. -/
inductive State
  | lineStart
  | fieldStart
  | plain
  | quotedField
  | afterQuote
  deriving DecidableEq

/-- What has been read: the lines, the fields of this line and the characters of this
field, all last first, and the number of this line. -/
structure Progress where
  records : List Record := []
  fields : List String := []
  field : List Char := []
  line : Nat := 1

namespace Progress

/-- One more character in this field. -/
def push (p : Progress) (c : Char) : Progress :=
  { p with field := c :: p.field }

/-- The end of this field. -/
def endField (p : Progress) : Progress :=
  { p with fields := String.ofList p.field.reverse :: p.fields, field := [] }

/-- The end of this line after the end of its last field. -/
def endLine (p : Progress) : Progress :=
  let p := p.endField
  { records := ⟨p.line, p.fields.reverse⟩ :: p.records, fields := [], field := [],
    line := p.line + 1 }

/-- The end of a blank line. -/
def skipLine (p : Progress) : Progress :=
  { p with line := p.line + 1 }

end Progress

/-- The separator of fields. -/
def comma : Char := ','

/-- The quote around fields. -/
def quote : Char := '"'

/-- A line break. -/
def isBreak (c : Char) : Bool :=
  c == '\n' || c == '\r'

/-- A blank inside a line. -/
def isBlankMark (c : Char) : Bool :=
  c == ' ' || c == '\t'

/-- Reads the characters of a text one by one; `skip` tells that a line feed after a
carriage return is still part of the same line break. -/
def scan (state : State) (skip : Bool) (p : Progress) : List Char → Except Failure Progress
  | [] =>
    match state with
    | .lineStart => .ok p
    | .quotedField => .error (.csvOpenQuote p.line)
    | _ => .ok p.endLine
  | c :: s =>
    if skip && c == '\n' then scan state false p s
    else
      match state with
      | .quotedField =>
        if c == quote then scan .afterQuote false p s else scan .quotedField false (p.push c) s
      | .lineStart =>
        if isBreak c then scan .lineStart (c == '\r') p.skipLine s
        else if isBlankMark c && (s.dropWhile isBlankMark).head?.all isBreak &&
            !(s.dropWhile isBlankMark).isEmpty then
          scan .lineStart false p s
        else if c == quote then scan .quotedField false p s
        else if c == comma then scan .fieldStart false p.endField s
        else scan .plain false (p.push c) s
      | .fieldStart =>
        if isBreak c then scan .lineStart (c == '\r') p.endLine s
        else if c == quote then scan .quotedField false p s
        else if c == comma then scan .fieldStart false p.endField s
        else scan .plain false (p.push c) s
      | .plain =>
        if isBreak c then scan .lineStart (c == '\r') p.endLine s
        else if c == comma then scan .fieldStart false p.endField s
        else scan .plain false (p.push c) s
      | .afterQuote =>
        if isBreak c then scan .lineStart (c == '\r') p.endLine s
        else if c == quote then scan .quotedField false (p.push c) s
        else if c == comma then scan .fieldStart false p.endField s
        else scan .plain false (p.push c) s

/-- The lines of a text; a byte order mark in front is dropped. -/
def records (s : String) : Except Failure (List Record) :=
  let body := if ['\ufeff'].isPrefixOf s.toList then s.toList.drop 1 else s.toList
  (scan .lineStart false {} body).map fun p => p.records.reverse

/-- The texts that stand for a missing value. -/
def missingTexts : List String :=
  ["", "#N/A", "#N/A N/A", "#NA", "-1.#IND", "-1.#QNAN", "-NaN", "-nan", "1.#IND", "1.#QNAN",
    "<NA>", "N/A", "NA", "NULL", "NaN", "None", "n/a", "nan", "null"]

/-- A field, none when it stands for a missing value. -/
def present? (field : String) : Option String :=
  if missingTexts.contains field then none else some field

/-- The names of the columns: an empty name is numbered by position. -/
def namedColumns (fields : List String) : List String :=
  fields.zipIdx.map fun (name, i) => if name = "" then "Unnamed: " ++ i.repr else name

/-- The first number from `n` on that makes a repeated name new among the used and the
given names. -/
def freshName (taken : List String) (name : String) : Nat → Nat → String
  | 0, n => name ++ "." ++ n.repr
  | fuel + 1, n =>
    let candidate := name ++ "." ++ n.repr
    if taken.contains candidate then freshName taken name fuel (n + 1) else candidate

/-- The names with repeated ones numbered; `used` holds the names given so far. -/
def distinctColumns (all : List String) (used : List String) : List String → List String
  | [] => []
  | name :: names =>
    let fresh := if used.contains name then
        freshName (used ++ all) name (used.length + all.length) 1
      else name
    fresh :: distinctColumns all (used ++ [fresh]) names

/-- A header and rows of fields, a missing value being none. -/
structure Data where
  header : List String
  rows : List (List (Option String))

/-- A line completed to a number of fields. -/
def complete (width : Nat) (fields : List String) : List String :=
  fields ++ List.replicate (width - fields.length) ""

/-- The header and the rows of a text. The first row after the header may have more
fields than the header, in which case the first fields of every row have no column;
later rows may not be longer than it. -/
def read (s : String) : Except Failure Data :=
  match records s with
  | .error e => .error e
  | .ok [] => .error .csvEmpty
  | .ok (head :: lines) =>
    let names := namedColumns head.fields
    let columns := distinctColumns names [] names
    let width := max names.length ((lines.head?.map fun r => r.fields.length).getD 0)
    match lines.find? fun r => width < r.fields.length with
    | some r => .error (.csvRagged width r.line r.fields.length)
    | none =>
      .ok ⟨columns, lines.map fun r =>
        ((complete width r.fields).drop (width - names.length)).map present?⟩

end TableQuery.Csv
