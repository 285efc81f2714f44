import Mathlib.Algebra.Order.Field.Basic
import Mathlib.Algebra.Order.Ring.Rat
import TableQuery.Binary64.Difference

/-!
# The order of doubles

One unit is itself a double, so the rounded difference of two numbers is zero only when
they are equal, and its sign is that of the exact difference. `compare` therefore orders
numbers by their rank, which for finite numbers is the order of their exact values.
-/

namespace TableQuery.Binary64

/-- The exact value of a finite number. -/
def value (x : Binary64) : ℚ :=
  x.rank / unitsPerOne

theorem twoPow_shiftOf_le {units : Nat} (h : 0 < units) : twoPow (shiftOf units) ≤ units :=
  calc
    twoPow (shiftOf units) ≤ twoPow units.log2 := Nat.pow_le_pow_right Nat.two_pos (Nat.sub_le _ _)
    _ ≤ units := Nat.log2_self_le (Nat.pos_iff_ne_zero.1 h)

theorem roundUnits_pos {units : Nat} (h : 0 < units) : 0 < roundUnits units 1 := by
  have hq : 0 < units / twoPow (shiftOf units) :=
    Nat.div_pos (twoPow_shiftOf_le h) (Nat.two_pow_pos _)
  simp only [roundUnits, Nat.div_one, Nat.one_mul]
  exact Nat.mul_pos (Nat.lt_of_lt_of_le hq (le_roundDiv _ _)) (Nat.two_pow_pos _)

/-- Rounding keeps the sign of a number of units. -/
theorem sign_ofUnits {d : Int} (h : d ≠ 0) : (ofUnits d).sign = Ord.compare d 0 := by
  have hsign : (if d < 0 then Ordering.lt else Ordering.gt) = Ord.compare d 0 := by
    rcases lt_or_gt_of_ne h with hd | hd
    · rw [if_pos hd, compare_lt_iff_lt.2 hd]
    · rw [if_neg (not_lt_of_gt hd), compare_gt_iff_gt.2 hd]
  have hpos : roundUnits d.natAbs 1 ≠ 0 := (roundUnits_pos (Int.natAbs_pos.2 h)).ne'
  rw [← hsign, ofUnits, ofUnitsRatio]
  split
  · simp [sign, hpos]
  · simp [sign]

theorem natAbs_rank_lt_limit (neg : Bool) (units : Nat) (h : Fits units) :
    (rank (.finite neg units h)).natAbs < limit := by
  cases neg with
  | false => exact h.1
  | true =>
      rw [rank, Int.natAbs_neg]
      exact h.1

theorem compare_sub_zero (a b : Int) : Ord.compare (a - b) 0 = Ord.compare a b := by
  rcases lt_trichotomy a b with h | h | h
  · rw [compare_lt_iff_lt.2 h, compare_lt_iff_lt.2 (by omega)]
  · rw [compare_eq_iff_eq.2 h, compare_eq_iff_eq.2 (by omega)]
  · rw [compare_gt_iff_gt.2 h, compare_gt_iff_gt.2 (by omega)]

theorem unitsPerOne_pos : 0 < unitsPerOne := by
  have hpow : ∀ k, 0 < twoPow k := Nat.two_pow_pos
  rw [unitsPerOne_eq]
  exact hpow 1074

theorem limit_pos : 0 < limit :=
  Nat.zero_lt_of_lt fits_zero.1

theorem compare_infinite_infinite (s t : Bool) :
    compare (.infinite s) (.infinite t) =
      Ord.compare (rank (.infinite s)) (rank (.infinite t)) := by
  have hlimit : (0 : Int) < limit := Int.natCast_pos.2 limit_pos
  cases s with
  | false =>
      cases t with
      | false => exact (compare_eq_iff_eq.2 rfl).symm
      | true => exact (compare_gt_iff_gt.2 (by simp only [rank]; omega)).symm
  | true =>
      cases t with
      | false => exact (compare_lt_iff_lt.2 (by simp only [rank]; omega)).symm
      | true => exact (compare_eq_iff_eq.2 rfl).symm

theorem compare_infinite_finite (s t : Bool) (m : Nat) (hm : Fits m) :
    compare (.infinite s) (.finite t m hm) =
      Ord.compare (rank (.infinite s)) (rank (.finite t m hm)) := by
  have hbound := natAbs_rank_lt_limit t m hm
  generalize hr : rank (.finite t m hm) = r at hbound ⊢
  cases s with
  | false => exact (compare_gt_iff_gt.2 (by simp only [rank]; omega)).symm
  | true => exact (compare_lt_iff_lt.2 (by simp only [rank]; omega)).symm

theorem compare_finite_infinite (s t : Bool) (n : Nat) (hn : Fits n) :
    compare (.finite s n hn) (.infinite t) =
      Ord.compare (rank (.finite s n hn)) (rank (.infinite t)) := by
  have hbound := natAbs_rank_lt_limit s n hn
  generalize hr : rank (.finite s n hn) = r at hbound ⊢
  cases t with
  | false => exact (compare_lt_iff_lt.2 (by simp only [rank]; omega)).symm
  | true => exact (compare_gt_iff_gt.2 (by simp only [rank]; omega)).symm

theorem compare_finite_finite (s t : Bool) (n m : Nat) (hn : Fits n) (hm : Fits m) :
    compare (.finite s n hn) (.finite t m hm) =
      Ord.compare (rank (.finite s n hn)) (rank (.finite t m hm)) := by
  rw [compare, sub, ← compare_sub_zero]
  split
  · next h =>
      rw [h]
      rfl
  · next h => exact sign_ofUnits h

/-- Numbers are ordered by their rank. -/
theorem compare_eq_compare_rank {a b : Binary64} (ha : a.isNan = false) (hb : b.isNan = false) :
    compare a b = Ord.compare a.rank b.rank := by
  cases a with
  | nan => exact absurd ha (by simp [isNan])
  | infinite s =>
      cases b with
      | nan => exact absurd hb (by simp [isNan])
      | infinite t => exact compare_infinite_infinite s t
      | finite t m hm => exact compare_infinite_finite s t m hm
  | finite s n hn =>
      cases b with
      | nan => exact absurd hb (by simp [isNan])
      | infinite t => exact compare_finite_infinite s t n hn
      | finite t m hm => exact compare_finite_finite s t n m hn hm

@[simp] theorem compare_nan_left (b : Binary64) : compare .nan b = .eq := rfl

@[simp] theorem compare_nan_right (a : Binary64) : compare a .nan = .eq := by
  cases a <;> rfl

theorem compare_swap (a b : Binary64) : (compare a b).swap = compare b a := by
  by_cases ha : a.isNan = false
  · by_cases hb : b.isNan = false
    · rw [compare_eq_compare_rank ha hb, compare_eq_compare_rank hb ha]
      exact Std.OrientedOrd.eq_swap.symm
    · have hnan : b = .nan := by
        cases b <;> simp_all [isNan]
      simp [hnan]
  · have hnan : a = .nan := by
      cases a <;> simp_all [isNan]
    simp [hnan]

theorem value_lt_value {a b : Binary64} : a.value < b.value ↔ a.rank < b.rank := by
  have hpos : (0 : ℚ) < unitsPerOne := Nat.cast_pos.2 unitsPerOne_pos
  rw [value, value, div_lt_div_iff_of_pos_right hpos, Int.cast_lt]

theorem isNan_of_isFinite {x : Binary64} (h : x.isFinite = true) : x.isNan = false := by
  cases x <;> simp_all [isFinite, isNan]

/-- Finite numbers are ordered by their exact values. -/
theorem compare_eq_compare_value {a b : Binary64} (ha : a.isFinite = true)
    (hb : b.isFinite = true) : compare a b = Ord.compare a.value b.value := by
  rw [compare_eq_compare_rank (isNan_of_isFinite ha) (isNan_of_isFinite hb)]
  rcases lt_trichotomy a.rank b.rank with h | h | h
  · rw [compare_lt_iff_lt.2 h, compare_lt_iff_lt.2 (value_lt_value.2 h)]
  · rw [compare_eq_iff_eq.2 h, compare_eq_iff_eq.2 (by rw [value, value, h])]
  · rw [compare_gt_iff_gt.2 h, compare_gt_iff_gt.2 (value_lt_value.2 h)]

end TableQuery.Binary64
