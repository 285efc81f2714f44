import TableQuery.Binary64.Power

/-!
# Double precision numbers

A finite double is a sign and a magnitude counted in units of `2 ^ -1074`, the
smallest positive double. The magnitude is a 53-bit number times a power of two
and stays below `2 ^ 2098` units. Doubles are the same number when their exact values
are equal, so the two zeros are.
-/

namespace TableQuery

/-- The first magnitude beyond the finite range, in units of `2 ^ -1074`. -/
def Binary64.limit : Nat := twoPow 2098

/-- The magnitudes of finite doubles, in units of `2 ^ -1074`. -/
def Binary64.Fits (units : Nat) : Prop :=
  units < limit ∧ ∃ m k, m < twoPow 53 ∧ units = m * twoPow k

/-- A double precision number. -/
inductive Binary64
  | finite (negative : Bool) (units : Nat) (fits : Binary64.Fits units)
  | infinite (negative : Bool)
  | nan
  deriving DecidableEq

namespace Binary64

/-- One, in units. -/
def unitsPerOne : Nat := twoPow 1074

theorem limit_eq : limit = twoPow 2098 := by
  delta limit
  rfl

theorem unitsPerOne_eq : unitsPerOne = twoPow 1074 := by
  delta unitsPerOne
  rfl

theorem twoPow_lt_limit {k : Nat} (h : k < 2098) : twoPow k < limit := by
  have hmono : ∀ l, k < l → twoPow k < twoPow l := fun _ => Nat.pow_lt_pow_right Nat.one_lt_two
  rw [limit_eq]
  exact hmono 2098 h

theorem fits_zero : Fits 0 :=
  ⟨Nat.lt_trans Nat.zero_lt_one (twoPow_lt_limit (k := 0) (by omega)), 0, 0, Nat.two_pow_pos 53,
    rfl⟩

theorem fits_twoPow {k : Nat} (h : k < 2098) : Fits (twoPow k) :=
  ⟨twoPow_lt_limit h, 1, k, Nat.one_lt_two_pow (by decide), (Nat.one_mul _).symm⟩

theorem fits_one : Fits unitsPerOne := by
  rw [unitsPerOne_eq]
  exact fits_twoPow (by omega)

/-- The number zero. -/
def zero : Binary64 := .finite false 0 fits_zero

/-- The number one. -/
def one : Binary64 := .finite false unitsPerOne fits_one

instance : Inhabited Binary64 := ⟨zero⟩

/-- Neither infinite nor an undefined result. -/
def isFinite : Binary64 → Bool
  | .finite .. => true
  | _ => false

/-- An undefined result. -/
def isNan : Binary64 → Bool
  | .nan => true
  | _ => false

/-- The signed magnitude in units; an infinity lies beyond every finite number. -/
def rank : Binary64 → Int
  | .finite false n _ => n
  | .finite true n _ => -n
  | .infinite false => limit
  | .infinite true => -limit
  | .nan => 0

/-- Numeric equality; an undefined result equals nothing. -/
def same (a b : Binary64) : Bool :=
  !a.isNan && !b.isNan && a.rank == b.rank

theorem same_comm (a b : Binary64) : same a b = same b a := by
  simp only [same, Bool.and_comm a.isNan.not, Bool.beq_comm (a := a.rank)]

/-- The value of a number without a fractional part. -/
def toInt? : Binary64 → Option Int
  | .finite neg n _ =>
    if n % unitsPerOne = 0 then
      some (if neg then -(n / unitsPerOne : Nat) else (n / unitsPerOne : Nat))
    else none
  | _ => none

/-- A number with the opposite sign. -/
def neg : Binary64 → Binary64
  | .finite s n h => .finite (!s) n h
  | .infinite s => .infinite (!s)
  | .nan => .nan

end Binary64

end TableQuery
