import TableQuery.Proofs.Binary64.Grammar
import TableQuery.Proofs.Binary64.Integer

/-!
# Numbers keep their order when they are read

The exact value of a number is the integer of its digits times a power of ten. The finite range ends
halfway between the largest double and `2 ^ 1024`; a number within it is read as the double nearest
to its exact value, and so numbers are read in the order of their exact values or as equal doubles.
-/

namespace TableQuery.Binary64

open TableQuery.Text

/-- The text is a number of that exact value. -/
def StandsFor (s : List Char) (q : ℚ) : Prop :=
  ∃ negative digits e, IsNumber s negative digits e ∧ q = signed negative (digits * 10 ^ e)

/-- The double is finite, and no finite double is nearer to the exact value. -/
structure IsNearest (x : Binary64) (q : ℚ) : Prop where
  finite : x.isFinite = true
  nearest : ∀ y : Binary64, y.isFinite = true → |x.value - q| ≤ |y.value - q|

theorem StandsFor.unique {s : List Char} {p q : ℚ} (hp : StandsFor s p) (hq : StandsFor s q) :
    p = q := by
  obtain ⟨negative, digits, e, hnumber, rfl⟩ := hp
  obtain ⟨negative', digits', e', hnumber', rfl⟩ := hq
  obtain ⟨rfl, rfl, rfl⟩ := hnumber.unique hnumber'
  rfl

theorem abs_signed (negative : Bool) (q : ℚ) : |signed negative q| = |q| := by
  cases negative with
  | false => rfl
  | true => exact abs_neg q

/-- A decimal has a double unless it is at least as near to `2 ^ 1024` as to the largest one. -/
theorem isFinite_ofDecimal_iff {negative : Bool} {digits : Nat} {e : Int} :
    (ofDecimal negative digits e).isFinite = true ↔
      (digits : ℚ) * 10 ^ e < 2 ^ 1024 - 2 ^ 970 := by
  have hone := cast_unitsPerOne_pos
  have hunits : (unitsPerOne : ℚ) = 2 ^ 1074 := by
    rw [unitsPerOne_eq, cast_twoPow]
  have hhalf : (twoPow 2044 : ℚ) = 2 ^ 970 * unitsPerOne := by
    rw [hunits, cast_twoPow, ← pow_add]
  have hlimit : (twoPow (2044 + 54) : ℚ) = 2 ^ 1024 * unitsPerOne := by
    rw [hunits, cast_twoPow, ← pow_add]
  rw [ofDecimal_eq_ofUnitsRatio, isFinite_ofUnitsRatio_iff, limit_eq,
    roundUnits_lt_iff (j := 2044) (decimalRatio_pos digits e), cast_decimalRatio, hhalf, hlimit,
    ← add_mul, mul_lt_mul_iff_of_pos_right hone, lt_sub_iff_add_lt]

section Nearest

variable {x y : Binary64} {p q : ℚ}

/-- What is nearest to zero is zero. -/
theorem IsNearest.value_eq_zero (h : IsNearest x 0) : x.value = 0 := by
  have hvalue : value (.finite false 0 fits_zero) = 0 := by
    rw [value_finite, signed, if_neg Bool.false_ne_true, Nat.cast_zero, zero_div]
  have hzero := h.nearest (.finite false 0 fits_zero) rfl
  rwa [hvalue, sub_zero, sub_zero, abs_zero, abs_nonpos_iff] at hzero

/-- The nearest doubles of two numbers are in their order when the numbers are apart. -/
theorem IsNearest.value_le_of_lt (hx : IsNearest x p) (hy : IsNearest y q) (hlt : p < q) :
    x.value ≤ y.value := by
  by_contra hswap
  exact absurd hlt (not_lt.2 (le_of_abs_sub_le_abs_sub (not_le.1 hswap) (hx.nearest y hy.finite)
    (hy.nearest x hx.finite)))

end Nearest

section Decimals

variable {negative negative' : Bool} {digits digits' : Nat} {e e' : Int}

theorem isNearest_ofDecimal (hfinite : (ofDecimal negative digits e).isFinite = true) :
    IsNearest (ofDecimal negative digits e) (signed negative (digits * 10 ^ e)) :=
  ⟨hfinite, fun _ hy => abs_value_ofDecimal_sub_le hfinite hy⟩

theorem eq_zero_of_signed_eq {a b : ℚ} (ha : 0 ≤ a) (hb : 0 ≤ b) (hsign : negative ≠ negative')
    (h : signed negative a = signed negative' b) : signed negative a = 0 := by
  cases negative with
  | false =>
      obtain rfl : negative' = true := Bool.eq_true_of_not_eq_false hsign.symm
      rw [signed, signed, if_neg Bool.false_ne_true, if_pos rfl] at h
      rw [signed, if_neg Bool.false_ne_true]
      linarith
  | true =>
      obtain rfl : negative' = false := Bool.eq_false_of_not_eq_true hsign.symm
      rw [signed, signed, if_neg Bool.false_ne_true, if_pos rfl] at h
      rw [signed, if_pos rfl]
      linarith

/-- Decimals of one exact value have doubles of one value, also where the value is zero and the
signs differ. -/
theorem value_ofDecimal_congr (hfinite : (ofDecimal negative digits e).isFinite = true)
    (hfinite' : (ofDecimal negative' digits' e').isFinite = true)
    (h : signed negative (digits * 10 ^ e) = signed negative' (digits' * 10 ^ e')) :
    (ofDecimal negative digits e).value = (ofDecimal negative' digits' e').value := by
  by_cases hsign : negative = negative'
  · subst hsign
    have hvalue : (digits : ℚ) * 10 ^ e = digits' * 10 ^ e' := by
      cases negative with
      | false => exact h
      | true => exact neg_inj.1 h
    rw [ofDecimal_congr negative hvalue]
  · have hexact : ∀ (n : Nat) (k : Int), (0 : ℚ) ≤ n * 10 ^ k := fun n k =>
      mul_nonneg (Nat.cast_nonneg _) (zpow_nonneg (by norm_num) _)
    have hzero := eq_zero_of_signed_eq (hexact digits e) (hexact digits' e') hsign h
    have hnearest := isNearest_ofDecimal hfinite
    have hnearest' := isNearest_ofDecimal hfinite'
    rw [← h] at hnearest'
    rw [hzero] at hnearest hnearest'
    rw [hnearest.value_eq_zero, hnearest'.value_eq_zero]

end Decimals

section Texts

variable {s t : String} {x y : Binary64} {p q : ℚ}

/-- A text is read exactly when it is a number within the finite range. -/
theorem exists_number?_iff :
    (∃ x, number? s = some x) ↔ ∃ q, StandsFor (trimChars s) q ∧ |q| < 2 ^ 1024 - 2 ^ 970 := by
  simp only [number?_eq_some_iff]
  constructor
  · rintro ⟨_, negative, digits, e, hnumber, rfl, hfinite⟩
    refine ⟨_, ⟨negative, digits, e, hnumber, rfl⟩, ?_⟩
    rw [abs_signed, abs_of_nonneg (mul_nonneg (Nat.cast_nonneg _) (zpow_nonneg (by norm_num) _))]
    exact isFinite_ofDecimal_iff.1 hfinite
  · rintro ⟨_, ⟨negative, digits, e, hnumber, rfl⟩, hrange⟩
    refine ⟨_, negative, digits, e, hnumber, rfl, isFinite_ofDecimal_iff.2 ?_⟩
    rw [abs_signed] at hrange
    exact (le_abs_self _).trans_lt hrange

theorem isNearest_of_number? (h : number? s = some x) (hq : StandsFor (trimChars s) q) :
    IsNearest x q := by
  obtain ⟨negative, digits, e, hnumber, rfl, hfinite⟩ := number?_eq_some_iff.1 h
  rw [hq.unique ⟨negative, digits, e, hnumber, rfl⟩]
  exact isNearest_ofDecimal hfinite

/-- Numbers are read in the order of their exact values. -/
theorem value_le_of_number? (hx : number? s = some x) (hy : number? t = some y)
    (hp : StandsFor (trimChars s) p) (hq : StandsFor (trimChars t) q) (hle : p ≤ q) :
    x.value ≤ y.value := by
  rcases hle.lt_or_eq with hlt | heq
  · exact (isNearest_of_number? hx hp).value_le_of_lt (isNearest_of_number? hy hq) hlt
  · obtain ⟨negative, digits, e, hnumber, rfl, hfinite⟩ := number?_eq_some_iff.1 hx
    obtain ⟨negative', digits', e', hnumber', rfl, hfinite'⟩ := number?_eq_some_iff.1 hy
    rw [hp.unique ⟨negative, digits, e, hnumber, rfl⟩,
      hq.unique ⟨negative', digits', e', hnumber', rfl⟩] at heq
    exact (value_ofDecimal_congr hfinite hfinite' heq).le

theorem isFinite_of_number? (h : number? s = some x) : x.isFinite = true := by
  obtain ⟨_, _, _, -, -, hfinite⟩ := number?_eq_some_iff.1 h
  exact hfinite

theorem isLE_compare_iff (hx : x.isFinite = true) (hy : y.isFinite = true) :
    (compare x y).isLE = true ↔ x.value ≤ y.value := by
  rw [compare_eq_compare_value hx hy, ← Ordering.ne_gt_iff_isLE]
  exact compare_le_iff_le

/-- Where the doubles are in order, so are the exact values, or both are read as one double. -/
theorem le_or_value_eq_of_number? (hx : number? s = some x) (hy : number? t = some y)
    (hp : StandsFor (trimChars s) p) (hq : StandsFor (trimChars t) q)
    (hle : x.value ≤ y.value) : p ≤ q ∨ x.value = y.value := by
  rcases le_total p q with hpq | hqp
  · exact .inl hpq
  · exact .inr (le_antisymm hle (value_le_of_number? hy hx hq hp hqp))

end Texts

end TableQuery.Binary64
