import Mathlib.Algebra.Order.Field.Basic
import Mathlib.Algebra.Order.Ring.Rat
import Mathlib.Data.Nat.Cast.Order.Field
import Mathlib.Tactic.FieldSimp
import Mathlib.Tactic.Linarith
import TableQuery.Binary64.Rounding

/-!
# Rounding is to the nearest

A rounded ratio is as near to it as any magnitude of 53 bits. Two such magnitudes are further apart
than `2 ^ -53` of either, so a ratio that is nearer than half of that to one of them is rounded to
it. The rounded magnitude depends on the value of the ratio alone.
-/

namespace TableQuery.Binary64

/-- A number of 53 bits times a power of two. -/
def Representable (units : Nat) : Prop :=
  ∃ m k, m < twoPow 53 ∧ units = m * twoPow k

theorem Representable.zero : Representable 0 :=
  ⟨0, 0, Nat.two_pow_pos 53, rfl⟩

theorem Representable.twoPow (k : Nat) : Representable (twoPow k) :=
  ⟨1, k, Nat.one_lt_two_pow (by decide), (Nat.one_mul _).symm⟩

theorem twoPow_eq (k : Nat) : twoPow k = 2 ^ k := rfl

theorem cast_twoPow (k : Nat) : (twoPow k : ℚ) = 2 ^ k :=
  Nat.cast_pow 2 k

theorem cast_twoPow_pos (k : Nat) : (0 : ℚ) < twoPow k :=
  Nat.cast_pos.2 (Nat.two_pow_pos k)

theorem mul_twoPow_split {m j k : Nat} (h : k ≤ j) :
    m * twoPow j = m * twoPow (j - k) * twoPow k := by
  rw [twoPow_eq, twoPow_eq, twoPow_eq, Nat.mul_assoc, ← pow_add, Nat.sub_add_cancel h]

section Divisions

variable (num : Nat) {den : Nat}

theorem roundDiv_mul_bounds (h : 0 < den) : 2 * num ≤ 2 * (roundDiv num den * den) + den ∧
    2 * (roundDiv num den * den) ≤ 2 * num + den := by
  have hdiv := Nat.div_add_mod' num den
  have hmod := Nat.mod_lt num h
  have hsucc : (num / den + 1) * den = num / den * den + den := Nat.succ_mul _ _
  rw [roundDiv]
  split_ifs <;> omega

theorem abs_roundDiv_sub_le (h : 0 < den) : |(roundDiv num den : ℚ) - num / den| ≤ 1 / 2 := by
  have hden : (0 : ℚ) < den := Nat.cast_pos.2 h
  obtain ⟨hlow, hhigh⟩ := roundDiv_mul_bounds num h
  have hlow' : 2 * (num : ℚ) ≤ 2 * (roundDiv num den * den) + den := by exact_mod_cast hlow
  have hhigh' : 2 * (roundDiv num den * den : ℚ) ≤ 2 * num + den := by exact_mod_cast hhigh
  have hdiv : (num : ℚ) / den * den = num := div_mul_cancel₀ _ hden.ne'
  rw [abs_le]
  constructor <;> nlinarith

/-- No integer is nearer to the ratio than the rounded one. -/
theorem abs_roundDiv_sub_le_abs (h : 0 < den) (m : Nat) :
    |(roundDiv num den : ℚ) - num / den| ≤ |(m : ℚ) - num / den| := by
  have hhalf := abs_roundDiv_sub_le num h
  by_cases heq : m = roundDiv num den
  · rw [heq]
  · have hone : (1 : ℚ) ≤ |(m : ℚ) - roundDiv num den| := by
      have hne : (m : ℤ) - roundDiv num den ≠ 0 := sub_ne_zero.2 (by exact_mod_cast heq)
      exact_mod_cast Int.one_le_abs hne
    have htriangle := abs_sub_le (m : ℚ) (num / den) (roundDiv num den)
    rw [abs_sub_comm ((num : ℚ) / den)] at htriangle
    linarith

/-- No multiple of the last place is nearer to the ratio than the rounded magnitude. -/
theorem abs_roundUnits_sub_le_multiple (h : 0 < den) (m : Nat) :
    |(roundUnits num den : ℚ) - num / den| ≤
      |((m * twoPow (shiftOf (num / den)) : Nat) : ℚ) - num / den| := by
  generalize hk : shiftOf (num / den) = k
  have hpow := cast_twoPow_pos k
  have hscale : ∀ n : Nat, ((n * twoPow k : Nat) : ℚ) - num / den =
      twoPow k * (n - num / (den * twoPow k : Nat)) := by
    intro n
    have hden : (den : ℚ) ≠ 0 := Nat.cast_ne_zero.2 h.ne'
    push_cast
    field_simp
  rw [roundUnits, hk, hscale, hscale, abs_mul, abs_mul]
  exact mul_le_mul_of_nonneg_left
    (abs_roundDiv_sub_le_abs num (Nat.mul_pos h (Nat.two_pow_pos k)) m) (abs_nonneg _)

theorem floor_le_ratio (num den : Nat) : ((num / den : Nat) : ℚ) ≤ num / den :=
  Nat.cast_div_le

/-- Where places are dropped, the ratio reaches beyond all magnitudes with more places. -/
theorem twoPow_shiftOf_le_ratio {num : Nat} (hk : shiftOf (num / den) ≠ 0) :
    ((twoPow (52 + shiftOf (num / den)) : Nat) : ℚ) ≤ num / den := by
  refine le_trans (Nat.cast_le.2 ?_) (floor_le_ratio num den)
  have hlog : 52 + shiftOf (num / den) = (num / den).log2 := by
    rw [shiftOf] at hk ⊢
    omega
  rw [hlog]
  apply Nat.log2_self_le
  rintro hzero
  rw [hzero] at hk
  exact hk rfl

/-- No magnitude of 53 bits is nearer to a ratio than the rounded one. -/
theorem abs_roundUnits_sub_le (h : 0 < den) {u : Nat} (hu : Representable u) :
    |(roundUnits num den : ℚ) - num / den| ≤ |(u : ℚ) - num / den| := by
  obtain ⟨m, j, hm, rfl⟩ := hu
  generalize hk : shiftOf (num / den) = k
  rcases Nat.le_total k j with hkj | hjk
  · -- The magnitude is a multiple of the last place.
    rw [mul_twoPow_split hkj, ← hk]
    exact abs_roundUnits_sub_le_multiple num h _
  · rcases Nat.eq_or_lt_of_le hjk with rfl | hjk
    · rw [← hk]
      exact abs_roundUnits_sub_le_multiple num h _
    · -- The magnitude is below a multiple of the last place that does not exceed the ratio.
      have hbelow : ((twoPow (52 + shiftOf (num / den)) : Nat) : ℚ) ≤ num / den :=
        twoPow_shiftOf_le_ratio (by omega)
      have hnear := abs_roundUnits_sub_le_multiple num h (twoPow 52)
      have hplace : twoPow 52 * twoPow k = twoPow (52 + k) := (Nat.pow_add 2 52 k).symm
      rw [hk] at hbelow hnear
      rw [hplace] at hnear
      have hle : m * twoPow j ≤ twoPow (52 + k) := by
        calc
          m * twoPow j ≤ twoPow 53 * twoPow j := Nat.mul_le_mul_right _ hm.le
          _ = twoPow (53 + j) := (Nat.pow_add 2 53 j).symm
          _ ≤ twoPow (52 + k) := Nat.pow_le_pow_right Nat.two_pos (by omega)
      have hle' : ((m * twoPow j : Nat) : ℚ) ≤ (twoPow (52 + k) : Nat) := Nat.cast_le.2 hle
      rw [abs_of_nonpos (sub_nonpos.2 hbelow)] at hnear
      rw [abs_of_nonpos (sub_nonpos.2 (hle'.trans hbelow))]
      linarith

/-- A ratio of a magnitude of 53 bits is rounded to it. -/
theorem roundUnits_eq_self {num : Nat} (h : 0 < den) {u : Nat} (hu : Representable u)
    (heq : (num : ℚ) / den = u) : roundUnits num den = u := by
  have hnear := abs_roundUnits_sub_le num h hu
  rw [heq, sub_self, abs_zero, abs_nonpos_iff, sub_eq_zero] at hnear
  exact_mod_cast hnear

theorem le_roundUnits {num : Nat} (h : 0 < den) {u : Nat} (hu : Representable u)
    (hle : (u : ℚ) ≤ num / den) : u ≤ roundUnits num den := by
  by_contra hlt
  have hlt' : ((roundUnits num den : Nat) : ℚ) < u := Nat.cast_lt.2 (Nat.lt_of_not_le hlt)
  have hnear := abs_roundUnits_sub_le num h hu
  rw [abs_of_nonpos (sub_nonpos.2 hle), abs_of_nonpos (by linarith)] at hnear
  linarith

/-- Less than half a unit is rounded to zero. -/
theorem roundUnits_eq_zero {num : Nat} (h : 0 < den) (hlt : (num : ℚ) / den < 1 / 2) :
    roundUnits num den = 0 := by
  have hnear := abs_roundUnits_sub_le num h .zero
  have hpos : (0 : ℚ) ≤ num / den := div_nonneg (Nat.cast_nonneg _) (Nat.cast_nonneg _)
  have hlt' : ((roundUnits num den : Nat) : ℚ) < 1 := by
    rw [Nat.cast_zero, zero_sub, abs_neg, abs_of_nonneg hpos, abs_le] at hnear
    linarith
  have hone : roundUnits num den < 1 := by exact_mod_cast hlt'
  exact Nat.lt_one_iff.1 hone

end Divisions

section Gaps

variable {u r : Nat}

theorem cast_add_one_le {m : Nat} (h : m < twoPow 53) : (m : ℚ) + 1 ≤ 2 ^ 53 := by
  rw [← cast_twoPow]
  exact_mod_cast h

theorem twoPow_le_abs_sub {a b k : Nat} (hne : a * twoPow k ≠ b * twoPow k) :
    (twoPow k : ℚ) ≤ |((a * twoPow k : Nat) : ℚ) - (b * twoPow k : Nat)| := by
  have hab : (a : ℤ) - b ≠ 0 := by
    rw [sub_ne_zero]
    rintro heq
    exact hne (by rw [Int.natCast_inj.1 heq])
  have hone : (1 : ℚ) ≤ |(a : ℚ) - b| := by exact_mod_cast Int.one_le_abs hab
  have hpow := cast_twoPow_pos k
  rw [Nat.cast_mul, Nat.cast_mul, ← sub_mul, abs_mul, abs_of_pos hpow]
  nlinarith

/-- Two magnitudes of 53 bits are at least `2 ^ -53` of either apart. -/
theorem le_mul_abs_sub (hu : Representable u) (hr : Representable r) (hne : u ≠ r) :
    (u : ℚ) ≤ 2 ^ 53 * |(u : ℚ) - r| := by
  obtain ⟨m, j, hm, rfl⟩ := hu
  obtain ⟨m', j', hm', rfl⟩ := hr
  have hmax := cast_add_one_le hm
  have hmax' := cast_add_one_le hm'
  -- Both are multiples of the smaller of the two powers.
  rcases Nat.le_total j j' with hj | hj
  · have hpow := cast_twoPow_pos j
    rw [mul_twoPow_split hj] at hne ⊢
    have hgap := twoPow_le_abs_sub hne
    have hu : ((m * twoPow j : Nat) : ℚ) ≤ 2 ^ 53 * twoPow j := by
      rw [Nat.cast_mul]
      exact mul_le_mul_of_nonneg_right (by linarith) hpow.le
    linarith
  · have hpow := cast_twoPow_pos j'
    rw [mul_twoPow_split hj] at hne ⊢
    have hgap := twoPow_le_abs_sub hne
    have hle := le_abs_self (((m * twoPow (j - j') * twoPow j' : Nat) : ℚ) -
      (m' * twoPow j' : Nat))
    have hr : ((m' * twoPow j' : Nat) : ℚ) ≤ (2 ^ 53 - 1) * twoPow j' := by
      rw [Nat.cast_mul]
      exact mul_le_mul_of_nonneg_right (by linarith) hpow.le
    linarith

/-- A ratio that is nearer to a magnitude than half of the least gap beside it is rounded to it. -/
theorem roundUnits_eq_of_near {num den : Nat} (h : 0 < den) (hu : Representable u)
    (hnear : 2 ^ 54 * |(u : ℚ) - num / den| < u) : roundUnits num den = u := by
  by_contra hne
  have hgap := le_mul_abs_sub hu (exists_roundUnits num den) (Ne.symm hne)
  have hbest := abs_roundUnits_sub_le num h hu
  have htriangle := abs_sub_le (u : ℚ) (num / den) (roundUnits num den)
  rw [abs_sub_comm ((num : ℚ) / den)] at htriangle
  linarith

end Gaps

/-- What is not nearer to the smaller of two numbers lies below what is not nearer to the larger
one. -/
theorem le_of_abs_sub_le_abs_sub {a b p q : ℚ} (hab : b < a) (hp : |a - p| ≤ |b - p|)
    (hq : |b - q| ≤ |a - q|) : q ≤ p := by
  -- Neither `p` is below the middle of the two nor `q` above it.
  have hmiddle : a + b ≤ 2 * p := by
    rcases abs_cases (a - p) with ⟨ha, hsign⟩ | ⟨ha, hsign⟩ <;>
      rcases abs_cases (b - p) with ⟨hb, hsign'⟩ | ⟨hb, hsign'⟩ <;> linarith
  have hmiddle' : 2 * q ≤ a + b := by
    rcases abs_cases (a - q) with ⟨ha, hsign⟩ | ⟨ha, hsign⟩ <;>
      rcases abs_cases (b - q) with ⟨hb, hsign'⟩ | ⟨hb, hsign'⟩ <;> linarith
  linarith

section Scaling

variable {num den : Nat}

theorem roundDiv_mul_left {c : Nat} (hc : 0 < c) :
    roundDiv (c * num) (c * den) = roundDiv num den := by
  have hleft : 2 * (c * (num % den)) < c * den ↔ 2 * (num % den) < den := by
    rw [Nat.mul_left_comm, Nat.mul_lt_mul_left hc]
  have hright : c * den < 2 * (c * (num % den)) ↔ den < 2 * (num % den) := by
    rw [Nat.mul_left_comm, Nat.mul_lt_mul_left hc]
  simp only [roundDiv, Nat.mul_div_mul_left _ _ hc, Nat.mul_mod_mul_left, hleft, hright]

theorem roundUnits_mul_left {c : Nat} (hc : 0 < c) :
    roundUnits (c * num) (c * den) = roundUnits num den := by
  simp only [roundUnits, Nat.mul_div_mul_left _ _ hc, Nat.mul_assoc, roundDiv_mul_left hc]

/-- Equal ratios are rounded to the same magnitude. -/
theorem roundUnits_congr {num' den' : Nat} (h : 0 < den) (h' : 0 < den')
    (heq : (num : ℚ) / den = num' / den') : roundUnits num den = roundUnits num' den' := by
  have hcross : num * den' = num' * den := by
    rw [div_eq_div_iff (Nat.cast_ne_zero.2 h.ne') (Nat.cast_ne_zero.2 h'.ne')] at heq
    exact_mod_cast heq
  calc
    roundUnits num den = roundUnits (den' * num) (den' * den) := (roundUnits_mul_left h').symm
    _ = roundUnits (den * num') (den * den') := by
      rw [Nat.mul_comm den', hcross, Nat.mul_comm num', Nat.mul_comm den']
    _ = roundUnits num' den' := roundUnits_mul_left h

/-- Rounding keeps the order of ratios, but may make them equal. -/
theorem roundUnits_mono {num' den' : Nat} (h : 0 < den) (h' : 0 < den')
    (hle : (num : ℚ) / den ≤ num' / den') : roundUnits num den ≤ roundUnits num' den' := by
  rcases hle.lt_or_eq with hlt | heq
  · have hnear := abs_roundUnits_sub_le num h (exists_roundUnits num' den')
    have hnear' := abs_roundUnits_sub_le num' h' (exists_roundUnits num den)
    by_contra hswap
    have hswap' : ((roundUnits num' den' : Nat) : ℚ) < roundUnits num den :=
      Nat.cast_lt.2 (Nat.lt_of_not_le hswap)
    exact absurd hlt (not_lt.2 (le_of_abs_sub_le_abs_sub hswap' hnear hnear'))
  · exact (roundUnits_congr h h' heq).le

end Scaling

end TableQuery.Binary64
