import TableQuery.Binary64.Rounding

/-!
# Differences of doubles

The difference of two doubles is their exact difference rounded to the nearest double.
Two doubles are compared by the sign of their difference, so an undefined difference
leaves them level.
-/

namespace TableQuery.Binary64

/-- The double nearest to a number of units. -/
def ofUnits (n : Int) : Binary64 :=
  ofUnitsRatio (n < 0) n.natAbs 1

/-- The first number less the second. Equal numbers differ by the positive zero, unless
the negative zero is lessened by the positive one. -/
def sub : Binary64 → Binary64 → Binary64
  | .nan, _ => .nan
  | _, .nan => .nan
  | .infinite s, .infinite t => if s = t then .nan else .infinite s
  | .infinite s, .finite .. => .infinite s
  | .finite .., .infinite t => .infinite (!t)
  | .finite s n hn, .finite t m hm =>
    let d := rank (.finite s n hn) - rank (.finite t m hm)
    if d = 0 then .finite (s && !t) 0 fits_zero else ofUnits d

/-- How a number compares with zero; an undefined result is level with it. -/
def sign : Binary64 → Ordering
  | .finite neg n _ => if n = 0 then .eq else if neg then .lt else .gt
  | .infinite neg => if neg then .lt else .gt
  | .nan => .eq

/-- The order of two numbers, by the sign of their difference. -/
def compare (a b : Binary64) : Ordering :=
  (sub a b).sign

end TableQuery.Binary64
