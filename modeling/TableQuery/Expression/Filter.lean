import TableQuery.Text.Blank
import TableQuery.Text.Split

/-!
# Filter texts

A filter is `column = literal`. Everything right of the first equals sign is the
literal, and quotes of either kind around it are dropped. A text without an equals
sign is no filter.
-/

namespace TableQuery

open TableQuery.Text

/-- A column and the text that its cells are compared with. -/
structure Equality where
  column : String
  literal : String
  deriving DecidableEq

namespace Equality

/-- Either kind of quote. -/
def isQuote (c : Char) : Bool :=
  c == '\'' || c == '"'

/-- The trimmed parts of a text on both sides of its first equals sign. -/
def tokens (s : String) : List String :=
  let (left, right?) := cutFirst '=' s.toList
  let left := String.ofList (stripBy isBlank left)
  match right? with
  | none => [left]
  | some right => [left, String.ofList (stripBy isBlank right)]

/-- The filter that a text denotes. -/
def ofText? (s : String) : Option Equality :=
  if isBlankText s then none
  else
    match tokens s with
    | [column, literal] => some ⟨column, String.ofList (stripBy isQuote literal.toList)⟩
    | _ => none

/-- The filter of a request, which may leave it out. -/
def parse? (s : Option String) : Option Equality :=
  s.bind ofText?

@[simp] theorem parse?_none : parse? none = none := rfl

end Equality

end TableQuery
