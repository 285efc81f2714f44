import TableQuery.Failure
import TableQuery.Text.Blank
import TableQuery.Text.Digit
import TableQuery.Text.Split

/-!
# Identifiers

An identifier is a list of parts between dots. Each part starts with an ASCII
letter or an underscore and goes on with letters, digits and underscores; one line
break may end a part. Quoting puts every part in double quotes.
-/

namespace TableQuery.Sql

open TableQuery.Text

/-- A character that starts a part. -/
def isPartHead (c : Char) : Bool :=
  isAsciiLetter c || c == '_'

/-- A character inside a part. -/
def isPartTail (c : Char) : Bool :=
  isAsciiLetter c || isAsciiDigit c || c == '_'

/-- The characters after the first of a part; the last may be a line break. -/
def isPartRest : List Char → Bool
  | [] => true
  | ['\n'] => true
  | c :: s => isPartTail c && isPartRest s

/-- A part of an identifier. -/
def isPart : List Char → Bool
  | [] => false
  | c :: s => isPartHead c && isPartRest s

/-- An identifier: one or more parts. -/
structure Identifier where
  parts : List (List Char)
  nonempty : parts ≠ []
  areParts : parts.all isPart = true
  deriving DecidableEq

namespace Identifier

/-- The identifier that a text denotes, white space around it dropped. -/
def parse? (s : String) : Option Identifier :=
  if h : (cut '.' (trimChars s)).all isPart = true then
    some ⟨cut '.' (trimChars s), cut_ne_nil _ _, h⟩
  else none

/-- The parts with dots between them. -/
def text (i : Identifier) : String :=
  String.ofList (List.intercalate ['.'] i.parts)

/-- A part in double quotes. -/
def quotePart (part : List Char) : List Char :=
  '"' :: (part ++ ['"'])

/-- The parts in double quotes with dots between them. -/
def quoted (i : Identifier) : String :=
  String.ofList (List.intercalate ['.'] (i.parts.map quotePart))

/-- The identifier of a field, or the refusal that names the field. -/
def read (field value : String) : Except QueryError Identifier :=
  match parse? value with
  | some i => .ok i
  | none => .error (.identifierInvalid field value)

theorem read_eq_ok_iff {field value : String} {i : Identifier} :
    read field value = .ok i ↔ parse? value = some i := by
  unfold read
  split <;> simp_all

end Identifier

/-- A column in quotes behind its table. -/
def qualified (table column : Identifier) : String :=
  table.quoted ++ "." ++ column.quoted

end TableQuery.Sql
