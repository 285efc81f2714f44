import TableQuery.Binary64.Difference
import TableQuery.Text.Casing
import TableQuery.Value.Basic

/-!
# The order of values

Missing cells come first. Values of one kind have their own order, texts without
regard to case. Values of two kinds are ordered by their words.
-/

namespace TableQuery.Value

open TableQuery.Text

/-- The order of two values. -/
def compare : Value → Value → Ordering
  | .null, .null => .eq
  | .null, _ => .lt
  | _, .null => .gt
  | .number a, .number b => a.compare b
  | .timestamp a, .timestamp b => a.compare b
  | a, b => compareFold a.words b.words

theorem compare_null_null : compare .null .null = .eq := rfl

theorem compare_text (a b : String) : compare (.text a) (.text b) = compareFold a b := rfl

/-- Equality of the words of a cell with a text, without regard to case. A missing
cell equals nothing. -/
def matchesText (v : Value) (literal : String) : Bool :=
  !v.isNull && sameFold v.words literal

@[simp] theorem matchesText_null (literal : String) : matchesText .null literal = false := rfl

end TableQuery.Value
