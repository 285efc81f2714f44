import TableQuery.Binary64.Basic

/-!
# Rounding to double precision

`roundUnits` takes a ratio of units to the nearest representable magnitude, ties
to the even neighbour, and `ofRatio` makes a double of it: beyond the finite
range the result is infinite.
-/

namespace TableQuery.Binary64

/-- The integer nearest to a ratio; a tie goes to the even neighbour. -/
def roundDiv (num den : Nat) : Nat :=
  let q := num / den
  let r := num % den
  if 2 * r < den then q
  else if den < 2 * r then q + 1
  else if q % 2 = 0 then q else q + 1

theorem le_roundDiv (num den : Nat) : num / den ≤ roundDiv num den := by
  simp only [roundDiv]
  split
  · exact Nat.le_refl _
  · split
    · exact Nat.le_succ _
    · split
      · exact Nat.le_refl _
      · exact Nat.le_succ _

theorem roundDiv_le (num den : Nat) : roundDiv num den ≤ num / den + 1 := by
  simp only [roundDiv]
  split
  · exact Nat.le_succ _
  · split
    · exact Nat.le_refl _
    · split
      · exact Nat.le_succ _
      · exact Nat.le_refl _

/-- The binary places dropped from a magnitude of more than 53 bits. -/
def shiftOf (units : Nat) : Nat :=
  units.log2 - 52

theorem div_shiftOf_lt (units : Nat) : units / twoPow (shiftOf units) < twoPow 53 := by
  have hlog : units.log2 + 1 ≤ shiftOf units + 53 := by
    rw [shiftOf]
    omega
  apply Nat.div_lt_of_lt_mul
  calc
    units < twoPow (units.log2 + 1) := Nat.lt_log2_self
    _ ≤ twoPow (shiftOf units + 53) := Nat.pow_le_pow_right Nat.two_pos hlog
    _ = twoPow (shiftOf units) * twoPow 53 := Nat.pow_add 2 _ _

/-- The representable magnitude nearest to `num / den` units. -/
def roundUnits (num den : Nat) : Nat :=
  let k := shiftOf (num / den)
  roundDiv num (den * twoPow k) * twoPow k

theorem exists_roundUnits (num den : Nat) :
    ∃ m k, m < twoPow 53 ∧ roundUnits num den = m * twoPow k := by
  have hq : num / (den * twoPow (shiftOf (num / den))) < twoPow 53 := by
    rw [← Nat.div_div_eq_div_mul]
    exact div_shiftOf_lt _
  have hle := roundDiv_le num (den * twoPow (shiftOf (num / den)))
  by_cases hlt : roundDiv num (den * twoPow (shiftOf (num / den))) < twoPow 53
  · exact ⟨_, _, hlt, rfl⟩
  · have heq : roundDiv num (den * twoPow (shiftOf (num / den))) = twoPow 53 := by omega
    refine ⟨twoPow 52, shiftOf (num / den) + 1, by decide, ?_⟩
    -- The carry moves one place from the number to the power.
    calc
      roundUnits num den = twoPow 53 * twoPow (shiftOf (num / den)) := by rw [roundUnits, heq]
      _ = twoPow (53 + shiftOf (num / den)) := (Nat.pow_add 2 53 _).symm
      _ = twoPow (52 + (shiftOf (num / den) + 1)) := congrArg twoPow (by omega)
      _ = twoPow 52 * twoPow (shiftOf (num / den) + 1) := Nat.pow_add 2 52 _

/-- The double nearest to `num / den` units. -/
def ofUnitsRatio (negative : Bool) (num den : Nat) : Binary64 :=
  if h : roundUnits num den < limit then
    .finite negative (roundUnits num den) ⟨h, exists_roundUnits num den⟩
  else .infinite negative

/-- The double nearest to `num / den`. -/
def ofRatio (negative : Bool) (num den : Nat) : Binary64 :=
  ofUnitsRatio negative (num * unitsPerOne) den

/-- The double nearest to an integer, infinite beyond the finite range. -/
def ofInt (n : Int) : Binary64 :=
  ofRatio (n < 0) n.natAbs 1

/-- The double nearest to an integer of the finite range. -/
def ofInt? (n : Int) : Option Binary64 :=
  let x := ofInt n
  if x.isFinite then some x else none

/-- How many decimal digits a number has; zero has one. -/
def decimalLength (n : Nat) : Nat :=
  (Nat.toDigits 10 n).length

/-- The double nearest to `digits * 10 ^ exponent`. Exponents that settle the
answer by themselves are not expanded. -/
def ofDecimal (negative : Bool) (digits : Nat) (exponent : Int) : Binary64 :=
  if digits = 0 then .finite negative 0 fits_zero
  else
    let top := (decimalLength digits : Int) + exponent
    if 310 < top then .infinite negative
    else if top < -330 then .finite negative 0 fits_zero
    else if 0 ≤ exponent then ofRatio negative (digits * tenPow exponent.toNat) 1
    else ofRatio negative digits (tenPow (-exponent).toNat)

end TableQuery.Binary64
