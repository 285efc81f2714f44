import TableQuery.Datum
import TableQuery.Text.Split

/-!
# Statements with parameters

A statement carries its values beside the text, which refers to them by number.
`inlined` writes the values into the text, for logs only: the placeholders are
replaced one after the other, the highest number first.
-/

namespace TableQuery.Sql

open TableQuery.Text

/-- A text with numbered placeholders and the values for them. -/
structure Statement where
  sql : String
  params : List Datum := []

namespace Statement

/-- The placeholder with a number. -/
def placeholder (n : Nat) : String :=
  "$" ++ n.repr

/-- Registers a value and gives its placeholder. -/
def addParam (s : Statement) (value : Datum) : Statement × String :=
  let params := s.params ++ [value]
  ({ s with params }, placeholder params.length)

/-- A value written into a statement: texts in quotes, quotes inside doubled. -/
def rendered : Datum → String
  | .text s => "'" ++ replaceAll "'" "''" s ++ "'"
  | d => d.plain

/-- The text with the placeholders up to a number replaced, the highest first. -/
def inlineFrom (params : List Datum) : Nat → String → String
  | 0, sql => sql
  | n + 1, sql =>
    inlineFrom params n <|
      match params[n]? with
      | some value => replaceAll (placeholder (n + 1)) (rendered value) sql
      | none => sql

/-- The text with every placeholder replaced by its value. -/
def inlined (s : Statement) : String :=
  inlineFrom s.params s.params.length s.sql

end Statement

end TableQuery.Sql
