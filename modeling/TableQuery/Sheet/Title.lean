import TableQuery.Failure
import TableQuery.Text.Casing
import TableQuery.Text.Digit

/-!
# Sheet titles

A new sheet takes the wanted title unless it holds a forbidden character. When a
sheet of that title exists, without regard to case, a number is appended: one more
than the highest number that follows the title among the titles of the book.
-/

namespace TableQuery.Title

open TableQuery.Text

/-- The characters that no title has. -/
def forbidden : List Char := ['\\', '*', '?', ':', '/', '[', ']']

/-- The title of a sheet for which none is wanted. -/
def fallback : String := "Sheet"

/-- What is left of a text after a title that it starts with, in any case. -/
def afterTitle? : List (List Char) → List Char → Option (List Char)
  | [], s => some s
  | _ :: _, [] => none
  | c :: title, d :: s => if c = caseClass d then afterTitle? title s else none

/-- The digits after each occurrence of a title, found from left to right; `skip`
characters still belong to the last occurrence. -/
def numbersAfter (title : List (List Char)) : Nat → List Char → List (List Char)
  | _, [] => []
  | skip + 1, _ :: s => numbersAfter title skip s
  | 0, c :: s =>
    match afterTitle? title (c :: s) with
    | none => numbersAfter title 0 s
    | some rest =>
      let digits := rest.takeWhile isDigit
      let comma := if [','].isPrefixOf (rest.dropWhile isDigit) then 1 else 0
      digits :: numbersAfter title (title.length + digits.length + comma - 1) s

/-- The highest number that follows a title among the titles of a book. -/
def highestNumber (titles : List String) (title : String) : Nat :=
  let joined := (String.intercalate "," titles).toList
  ((numbersAfter (title.toList.map caseClass) 0 joined).map digitsValue).foldl max 0

/-- A title that no sheet of a book has, as far as one number can tell. -/
def unused (titles : List String) (title : String) : String :=
  if titles.any fun t => lower t == lower title then
    title ++ (highestNumber titles title + 1).repr
  else title

/-- The title that a new sheet of a book takes. -/
def choose (titles : List String) (wanted : String) : Except Failure String :=
  let title := if wanted = "" then fallback else wanted
  match title.toList.find? forbidden.contains with
  | some c => .error (.titleInvalid c)
  | none => .ok (unused titles title)

end TableQuery.Title
