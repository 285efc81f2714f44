import Mathlib.Data.List.TakeWhile
import Mathlib.Tactic.LinearCombination
import TableQuery.Proofs.Binary64.Printed

/-!
# Shortest digits are read back

Seventeen significant digits name a double: they are nearer to it than half of the gap beside it.
So the search for the fewest digits ends with a hit, and a hit is read back as the number that was
printed. The literal of a number spells those digits.
-/

namespace TableQuery.Binary64

open TableQuery.Text

section Scaling

variable {units : Nat}

theorem scaled_pos (units : Nat) (scale : Int) : 0 < (scaled units scale).2 := by
  rw [scaled]
  split
  · dsimp only
    exact unitsPerOne_pos
  · exact Nat.mul_pos unitsPerOne_pos (Nat.pow_pos (Nat.succ_pos 9))

theorem cast_scaled (units : Nat) (scale : Int) :
    ((scaled units scale).1 : ℚ) / (scaled units scale).2 = units / unitsPerOne * 10 ^ scale := by
  rw [scaled]
  split
  · next h => rw [zpow_toNat h, Nat.cast_mul, mul_div_right_comm]
  · next h =>
      have hpow : (10 : ℚ) ^ scale = (tenPow (-scale).toNat : ℚ)⁻¹ := by
        rw [← zpow_toNat (by omega), zpow_neg, inv_inv]
      rw [hpow, Nat.cast_mul, div_mul_eq_div_div, div_eq_mul_inv _ (tenPow _ : ℚ)]

theorem unitsPerOne_le_tenPow : unitsPerOne ≤ tenPow 324 := by
  decide +kernel

/-- The exponent of the first digit does not exceed the number. -/
theorem zpow_topExponent_le (h : 0 < units) :
    (10 : ℚ) ^ topExponent units ≤ units / unitsPerOne := by
  have hne : units * tenPow 324 / unitsPerOne ≠ 0 := by
    have hle : unitsPerOne ≤ units * tenPow 324 :=
      unitsPerOne_le_tenPow.trans (Nat.le_mul_of_pos_left _ h)
    exact (Nat.div_pos hle unitsPerOne_pos).ne'
  have hfirst := tenPow_le_of_decimalLength hne
  have hlength := decimalLength_pos (units * tenPow 324 / unitsPerOne)
  rw [topExponent]
  generalize decimalLength (units * tenPow 324 / unitsPerOne) = length at hfirst hlength ⊢
  have hpow : (10 : ℚ) ^ (length - 325 : Int) * tenPow 324 = (10 ^ (length - 1) : Nat) := by
    rw [cast_tenPow, ← zpow_natCast, ← zpow_add₀ (by norm_num), Nat.cast_pow, Nat.cast_ofNat,
      ← zpow_natCast]
    congr 1
    omega
  have hfloor : ((units * tenPow 324 / unitsPerOne : Nat) : ℚ) ≤
      units / unitsPerOne * tenPow 324 := by
    refine (floor_le_ratio _ _).trans_eq ?_
    rw [Nat.cast_mul, mul_div_right_comm]
  have hten : (0 : ℚ) < tenPow 324 := by
    rw [cast_tenPow]
    exact pow_pos (by norm_num) 324
  refine le_of_mul_le_mul_right ?_ hten
  rw [hpow]
  exact (Nat.cast_le.2 hfirst).trans hfloor

/-- A number that is rounded at a place worth less than `10 ^ -16` of it stays nearer to itself than
half of the least gap beside it. -/
theorem mul_abs_sub_lt {u one n place scale : ℚ} (hu : 0 < u) (hone : 0 < one) (hplace : 0 < place)
    (hscale : place * scale = 1) (hsmall : place * 10 ^ 16 ≤ u / one)
    (hnear : |n - u / one * scale| ≤ 1 / 2) : 2 ^ 54 * |u - n * place * one| < u := by
  have hvalue : u / one * one = u := div_mul_cancel₀ _ hone.ne'
  have hfactor : u - n * place * one = -(place * one) * (n - u / one * scale) := by
    linear_combination -(u / one * one) * hscale - hvalue
  have hpos : 0 < place * one := mul_pos hplace hone
  have hdistance : |u - n * place * one| ≤ place * one * (1 / 2) := by
    rw [hfactor, abs_mul, abs_neg, abs_of_pos hpos]
    exact mul_le_mul_of_nonneg_left hnear hpos.le
  have hsmall' : place * one * 10 ^ 16 ≤ u := by
    calc
      place * one * 10 ^ 16 = place * 10 ^ 16 * one := mul_right_comm _ _ _
      _ ≤ u / one * one := mul_le_mul_of_nonneg_right hsmall hone.le
      _ = u := hvalue
  linarith only [hu, hdistance, hsmall']

/-- The nearest seventeen digits are read back. -/
theorem unitsOfScaled_near (h : 0 < units) (hunits : Representable units) :
    unitsOfScaled (roundDiv (scaled units (16 - topExponent units)).1
      (scaled units (16 - topExponent units)).2) (16 - topExponent units) = units := by
  generalize hscale : 16 - topExponent units = scale
  have hnear := abs_roundDiv_sub_le (scaled units scale).1 (scaled_pos units scale)
  generalize roundDiv (scaled units scale).1 (scaled units scale).2 = n at hnear ⊢
  rw [cast_scaled] at hnear
  rw [unitsOfScaled_eq]
  apply roundUnits_eq_of_near (decimalRatio_pos _ _) hunits
  rw [cast_decimalRatio]
  apply mul_abs_sub_lt (Nat.cast_pos.2 h) cast_unitsPerOne_pos (zpow_pos (by norm_num) _) _ _ hnear
  · rw [← zpow_add₀ (by norm_num), neg_add_cancel, zpow_zero]
  · refine le_of_eq_of_le ?_ (zpow_topExponent_le h)
    rw [← zpow_natCast, ← zpow_add₀ (by norm_num)]
    congr 1
    omega

end Scaling

section Search

variable {units n fuel count : Nat} {scale : Int}

theorem unitsOfScaled_of_neighbour? (h : neighbour? units count = some (n, scale)) :
    unitsOfScaled n scale = units := by
  rw [neighbour?] at h
  rcases ite_eq_iff.1 h with ⟨hnear, h⟩ | ⟨-, h⟩
  · obtain ⟨rfl, rfl⟩ := Prod.mk.inj (Option.some.inj h)
    exact hnear
  · rcases ite_eq_iff.1 h with ⟨hfar, h⟩ | ⟨-, h⟩
    · obtain ⟨rfl, rfl⟩ := Prod.mk.inj (Option.some.inj h)
      exact hfar
    · cases h

theorem unitsOfScaled_of_shortestFrom (h : shortestFrom units fuel count = some (n, scale)) :
    unitsOfScaled n scale = units := by
  induction fuel generalizing count with
  | zero => cases h
  | succ fuel ih =>
      rw [shortestFrom] at h
      split at h
      · next hit hneighbour =>
          cases h
          exact unitsOfScaled_of_neighbour? hneighbour
      · exact ih h

theorem exists_neighbour? (h : 0 < units) (hunits : Representable units) :
    ∃ hit, neighbour? units 17 = some hit := by
  exact ⟨_, if_pos (unitsOfScaled_near h hunits)⟩

theorem exists_shortestFrom (h : 0 < units) (hunits : Representable units) (hcount : count ≤ 17)
    (hfuel : 17 < count + fuel) : ∃ hit, shortestFrom units fuel count = some hit := by
  induction fuel generalizing count with
  | zero => omega
  | succ fuel ih =>
      rw [shortestFrom]
      split
      · next hit _ => exact ⟨hit, rfl⟩
      · next hnone =>
          rcases Nat.eq_or_lt_of_le hcount with rfl | hlt
          · obtain ⟨hit, hhit⟩ := exists_neighbour? h hunits
            rw [hnone] at hhit
            cases hhit
          · exact ih hlt (by omega)

end Search

section Digits

variable {units : Nat}

theorem exists_append_zeros (ds : List Char) :
    ∃ k, ds = dropTrailingZeros ds ++ List.replicate k '0' := by
  have hzeros : ds.reverse.takeWhile (· == '0') =
      List.replicate (ds.reverse.takeWhile (· == '0')).length '0' := by
    rw [List.eq_replicate_iff]
    exact ⟨rfl, fun c hc => beq_iff_eq.1 (List.mem_takeWhile_imp (p := (· == '0')) hc)⟩
  refine ⟨(ds.reverse.takeWhile (· == '0')).length, ?_⟩
  rw [dropTrailingZeros, ← List.reverse_replicate, ← hzeros, ← List.reverse_append,
    List.takeWhile_append_dropWhile, List.reverse_reverse]

theorem unitsOfScaled_zero (scale : Int) : unitsOfScaled 0 scale = 0 := by
  rw [unitsOfScaled_eq]
  apply roundUnits_eq_self (decimalRatio_pos _ _) .zero
  rw [cast_decimalRatio, Nat.cast_zero, zero_mul, zero_mul]

/-- Dropping the zeros at the end of the digits of a number divides it by a power of ten. -/
theorem exists_dropTrailingZeros {n : Nat} (hn : n ≠ 0) :
    ∃ k, IsDigits (dropTrailingZeros (Nat.toDigits 10 n)) ∧
      n = digitsValue (dropTrailingZeros (Nat.toDigits 10 n)) * 10 ^ k ∧
      (Nat.toDigits 10 n).length = (dropTrailingZeros (Nat.toDigits 10 n)).length + k := by
  obtain ⟨k, hk⟩ := exists_append_zeros (Nat.toDigits 10 n)
  generalize dropTrailingZeros (Nat.toDigits 10 n) = ds at hk ⊢
  have hdigits : ∀ c ∈ ds, isAsciiDigit c = true := by
    intro c hc
    apply isAsciiDigit_of_mem_toDigits (n := n)
    rw [hk]
    exact List.mem_append_left _ hc
  have hvalue : n = digitsValue ds * 10 ^ k := by
    rw [← digitsValue_append_zeros hdigits, ← hk, digitsValue_toDigits]
  have hne : ds ≠ [] := by
    rintro rfl
    rw [digitsValue_nil, Nat.zero_mul] at hvalue
    exact hn hvalue
  exact ⟨k, ⟨hne, hdigits⟩, hvalue, by rw [hk, List.length_append, List.length_replicate]⟩

/-- The shortest digits are read back as the magnitude. -/
theorem shortest_spec (h : 0 < units) (hfits : Fits units) (neg : Bool) :
    IsDigits (shortest units).digits ∧
      ofDecimal neg (digitsValue (shortest units).digits)
        ((shortest units).point - (shortest units).digits.length) = .finite neg units hfits := by
  have hfuel : 17 < 1 + 17 := by decide
  obtain ⟨⟨n, scale⟩, hhit⟩ := exists_shortestFrom h hfits.2 (by decide) hfuel
  have hunits := unitsOfScaled_of_shortestFrom hhit
  have hn : n ≠ 0 := by
    rintro rfl
    rw [unitsOfScaled_zero] at hunits
    exact h.ne hunits
  obtain ⟨k, hdigits, hvalue, hlength⟩ := exists_dropTrailingZeros hn
  have hshortest : shortest units =
      ⟨dropTrailingZeros (Nat.toDigits 10 n), (Nat.toDigits 10 n).length - scale⟩ := by
    rw [shortest, hhit]
    rfl
  rw [hshortest]
  refine ⟨hdigits, ?_⟩
  rw [← ofDecimal_of_unitsOfScaled hfits hunits]
  apply ofDecimal_congr
  dsimp only
  rw [hlength]
  generalize dropTrailingZeros (Nat.toDigits 10 n) = ds at hvalue ⊢
  rw [hvalue, mul_tenPow_mul_zpow]
  congr 2
  push_cast
  ring

/-- The literal of a magnitude spells its shortest digits. -/
theorem denotes_literal {d : Decimals} (h : IsDigits d.digits) :
    Denotes (if -4 < d.point ∧ d.point ≤ 16 then positional d.digits d.point ['.', '0']
      else scientific d.digits d.point) (digitsValue d.digits) (d.point - d.digits.length) := by
  split
  · exact denotes_positional h d.point (.inr rfl)
  · exact denotes_scientific h d.point

end Digits

end TableQuery.Binary64
