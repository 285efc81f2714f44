/-!
# Powers of two and of ten

The scales of binary and of decimal numbers. Their laws are those of `Nat.pow`.
-/

namespace TableQuery

/-- The powers of two. -/
def twoPow (k : Nat) : Nat :=
  Nat.pow 2 k

/-- The powers of ten. -/
def tenPow (k : Nat) : Nat :=
  Nat.pow 10 k

end TableQuery
