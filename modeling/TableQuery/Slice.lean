/-!
# Slices

A slice keeps the elements between two positions. A negative position counts from
the end, and positions beyond either end are moved to it.
-/

namespace TableQuery

/-- The position of a bound in a list of the given length. -/
def clampIndex (length : Nat) (i : Int) : Nat :=
  let j := if i < 0 then i + length else i
  min j.toNat length

/-- The elements from one bound up to another; a missing bound is that end. -/
def slice {α : Type} (start stop : Option Int) (xs : List α) : List α :=
  let lo := (start.map (clampIndex xs.length)).getD 0
  let hi := (stop.map (clampIndex xs.length)).getD xs.length
  (xs.take hi).drop lo

/-- The element at a position, counted from the end when it is negative. -/
def item? {α : Type} (i : Int) (xs : List α) : Option α :=
  let j := if i < 0 then i + xs.length else i
  if j < 0 then none else xs[j.toNat]?

end TableQuery
