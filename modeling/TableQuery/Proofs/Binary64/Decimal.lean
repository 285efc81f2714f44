import TableQuery.Binary64.Digits
import TableQuery.Proofs.Binary64.Nearest
import TableQuery.Proofs.Binary64.Order

/-!
# Decimals are rounded by their value

A decimal is read as the double nearest to its value, whatever its digits and its exponent are: the
exponents that are settled early are settled rightly. So decimals of one value are read alike.
-/

namespace TableQuery.Binary64

theorem tenPow_eq (k : Nat) : tenPow k = 10 ^ k := rfl

theorem cast_tenPow (k : Nat) : (tenPow k : ℚ) = 10 ^ k :=
  Nat.cast_pow 10 k

theorem cast_unitsPerOne_pos : (0 : ℚ) < unitsPerOne :=
  Nat.cast_pos.2 unitsPerOne_pos

theorem limit_le_tenPow : limit ≤ tenPow 310 * unitsPerOne := by
  decide +kernel

theorem two_mul_unitsPerOne_lt_tenPow : 2 * unitsPerOne < tenPow 330 := by
  decide +kernel

theorem representable_limit : Representable limit := by
  rw [limit_eq]
  exact .twoPow 2098

/-- The units of `digits * 10 ^ exponent` as a ratio. -/
def decimalRatio (digits : Nat) (exponent : Int) : Nat × Nat :=
  if 0 ≤ exponent then (digits * tenPow exponent.toNat * unitsPerOne, 1)
  else (digits * unitsPerOne, tenPow (-exponent).toNat)

section Decimals

variable {neg : Bool} {digits digits' : Nat} {exponent exponent' scale : Int}

theorem decimalRatio_pos (digits : Nat) (exponent : Int) :
    0 < (decimalRatio digits exponent).2 := by
  rw [decimalRatio]
  split
  · exact Nat.one_pos
  · exact Nat.pow_pos (Nat.succ_pos 9)

theorem zpow_toNat (h : 0 ≤ exponent) : (10 : ℚ) ^ exponent = tenPow exponent.toNat := by
  rw [cast_tenPow, ← zpow_natCast, Int.toNat_of_nonneg h]

theorem cast_decimalRatio (digits : Nat) (exponent : Int) :
    ((decimalRatio digits exponent).1 : ℚ) / (decimalRatio digits exponent).2 =
      digits * 10 ^ exponent * unitsPerOne := by
  rw [decimalRatio]
  split
  · next h => rw [Nat.cast_one, div_one, zpow_toNat h, Nat.cast_mul, Nat.cast_mul]
  · next h =>
      have hpow : (10 : ℚ) ^ exponent = (tenPow (-exponent).toNat : ℚ)⁻¹ := by
        rw [← zpow_toNat (by omega), zpow_neg, inv_inv]
      rw [hpow, Nat.cast_mul, div_eq_mul_inv, mul_right_comm]

theorem unitsOfScaled_eq (digits : Nat) (scale : Int) :
    unitsOfScaled digits scale =
      roundUnits (decimalRatio digits (-scale)).1 (decimalRatio digits (-scale)).2 := by
  rw [unitsOfScaled, decimalRatio]
  rcases lt_trichotomy scale 0 with h | rfl | h
  · rw [if_neg (not_le.2 h), if_pos (by omega)]
  · rw [neg_zero, if_pos le_rfl, if_pos le_rfl, Int.toNat_zero, tenPow_eq, Nat.pow_zero, Nat.mul_one]
  · rw [if_pos h.le, if_neg (by omega), neg_neg]

theorem decimalLength_pos (n : Nat) : 0 < decimalLength n :=
  Nat.length_toDigits_pos

theorem lt_tenPow_decimalLength (n : Nat) : n < 10 ^ decimalLength n :=
  (Nat.length_toDigits_le_iff (by decide) (decimalLength_pos n)).1 le_rfl

theorem tenPow_le_of_decimalLength {n : Nat} (h : n ≠ 0) : 10 ^ (decimalLength n - 1) ≤ n := by
  by_contra hlt
  have hpos : 0 < decimalLength n - 1 := by
    by_contra hzero
    rw [Nat.eq_zero_of_not_pos hzero] at hlt
    omega
  have hle : decimalLength n ≤ decimalLength n - 1 :=
    (Nat.length_toDigits_le_iff (by decide) hpos).2 (Nat.lt_of_not_le hlt)
  omega

/-- The first digit of a decimal gives its size. -/
theorem decimal_bounds (h : digits ≠ 0) (exponent : Int) :
    (10 : ℚ) ^ (decimalLength digits - 1 + exponent) ≤ digits * 10 ^ exponent ∧
      digits * (10 : ℚ) ^ exponent < 10 ^ (decimalLength digits + exponent) := by
  have hpow : (0 : ℚ) < 10 ^ exponent := zpow_pos (by norm_num) _
  have hlow : (10 : ℚ) ^ ((decimalLength digits : Int) - 1) ≤ digits := by
    have hcast : ((decimalLength digits : Int) - 1) = (decimalLength digits - 1 : Nat) := by
      have hpos := decimalLength_pos digits
      omega
    rw [hcast, zpow_natCast]
    exact_mod_cast tenPow_le_of_decimalLength h
  have hhigh : (digits : ℚ) < 10 ^ (decimalLength digits : Int) := by
    rw [zpow_natCast]
    exact_mod_cast lt_tenPow_decimalLength digits
  rw [zpow_add₀ (by norm_num), zpow_add₀ (by norm_num)]
  exact ⟨mul_le_mul_of_nonneg_right hlow hpow.le, mul_lt_mul_of_pos_right hhigh hpow⟩

theorem ofUnitsRatio_eq_finite {num den units : Nat} (h : roundUnits num den = units)
    (hfits : Fits units) : ofUnitsRatio neg num den = .finite neg units hfits := by
  subst h
  rw [ofUnitsRatio, dif_pos hfits.1]

theorem ofUnitsRatio_eq_infinite {num den : Nat} (h : limit ≤ roundUnits num den) :
    ofUnitsRatio neg num den = .infinite neg := by
  rw [ofUnitsRatio, dif_neg (Nat.not_lt.2 h)]

theorem exists_ofUnitsRatio_eq {num den : Nat} (h : (ofUnitsRatio neg num den).isFinite = true) :
    ∃ hfits, ofUnitsRatio neg num den = .finite neg (roundUnits num den) hfits := by
  by_cases hlt : roundUnits num den < limit
  · exact ⟨⟨hlt, exists_roundUnits num den⟩, ofUnitsRatio_eq_finite rfl _⟩
  · rw [ofUnitsRatio_eq_infinite (Nat.le_of_not_lt hlt)] at h
    cases h

theorem limit_le_roundUnits (h : digits ≠ 0) (htop : 310 < decimalLength digits + exponent) :
    limit ≤ roundUnits (decimalRatio digits exponent).1 (decimalRatio digits exponent).2 := by
  have hlarge : (tenPow 310 : ℚ) ≤ digits * 10 ^ exponent := by
    rw [cast_tenPow, ← zpow_natCast]
    exact (zpow_le_zpow_right₀ (by norm_num) (by omega)).trans (decimal_bounds h exponent).1
  apply le_roundUnits (decimalRatio_pos _ _) representable_limit
  calc
    (limit : ℚ) ≤ tenPow 310 * unitsPerOne := by exact_mod_cast limit_le_tenPow
    _ ≤ digits * 10 ^ exponent * unitsPerOne :=
      mul_le_mul_of_nonneg_right hlarge cast_unitsPerOne_pos.le
    _ = _ := (cast_decimalRatio digits exponent).symm

theorem roundUnits_decimalRatio_eq_zero (h : digits ≠ 0)
    (htop : decimalLength digits + exponent < -330) :
    roundUnits (decimalRatio digits exponent).1 (decimalRatio digits exponent).2 = 0 := by
  have hsmall : digits * (10 : ℚ) ^ exponent < 10 ^ (-330 : Int) :=
    (decimal_bounds h exponent).2.trans_le (zpow_le_zpow_right₀ (by norm_num) (by omega))
  have hpow : (10 : ℚ) ^ (-330 : Int) * tenPow 330 = 1 := by
    rw [cast_tenPow, ← zpow_natCast, ← zpow_add₀ (by norm_num)]
    exact zpow_zero 10
  have hunits : 2 * (unitsPerOne : ℚ) < tenPow 330 := by
    exact_mod_cast two_mul_unitsPerOne_lt_tenPow
  have hten : (0 : ℚ) < 10 ^ (-330 : Int) := zpow_pos (by norm_num) _
  apply roundUnits_eq_zero (decimalRatio_pos _ _)
  rw [cast_decimalRatio]
  calc
    digits * (10 : ℚ) ^ exponent * unitsPerOne ≤ 10 ^ (-330 : Int) * unitsPerOne :=
      mul_le_mul_of_nonneg_right hsmall.le cast_unitsPerOne_pos.le
    _ < 10 ^ (-330 : Int) * (tenPow 330 / 2) := mul_lt_mul_of_pos_left (by linarith) hten
    _ = 1 / 2 := by rw [← mul_div_assoc, hpow]

/-- A decimal is the double nearest to its value. -/
theorem ofDecimal_eq_ofUnitsRatio (neg : Bool) (digits : Nat) (exponent : Int) :
    ofDecimal neg digits exponent =
      ofUnitsRatio neg (decimalRatio digits exponent).1 (decimalRatio digits exponent).2 := by
  rw [ofDecimal]
  split
  · next h =>
      have hzero : roundUnits (decimalRatio digits exponent).1 (decimalRatio digits exponent).2
          = 0 := by
        apply roundUnits_eq_self (decimalRatio_pos _ _) .zero
        rw [cast_decimalRatio, h, Nat.cast_zero, zero_mul, zero_mul]
      exact (ofUnitsRatio_eq_finite hzero fits_zero).symm
  · next h =>
      dsimp only
      split_ifs with hlarge hsmall hpositive
      · exact (ofUnitsRatio_eq_infinite (limit_le_roundUnits h hlarge)).symm
      · exact (ofUnitsRatio_eq_finite (roundUnits_decimalRatio_eq_zero h hsmall) fits_zero).symm
      · rw [decimalRatio, if_pos hpositive, ofRatio]
      · rw [decimalRatio, if_neg hpositive, ofRatio]

/-- Decimals of one value are the same double. -/
theorem ofDecimal_congr (neg : Bool)
    (h : (digits : ℚ) * 10 ^ exponent = digits' * 10 ^ exponent') :
    ofDecimal neg digits exponent = ofDecimal neg digits' exponent' := by
  have hround : roundUnits (decimalRatio digits exponent).1 (decimalRatio digits exponent).2 =
      roundUnits (decimalRatio digits' exponent').1 (decimalRatio digits' exponent').2 := by
    apply roundUnits_congr (decimalRatio_pos _ _) (decimalRatio_pos _ _)
    rw [cast_decimalRatio, cast_decimalRatio, h]
  rw [ofDecimal_eq_ofUnitsRatio, ofDecimal_eq_ofUnitsRatio]
  simp only [ofUnitsRatio, hround]

/-- A scaled number that has some magnitude reads as the double of that magnitude. -/
theorem ofDecimal_of_unitsOfScaled {units : Nat} (hfits : Fits units)
    (h : unitsOfScaled digits scale = units) :
    ofDecimal neg digits (-scale) = .finite neg units hfits := by
  rw [ofDecimal_eq_ofUnitsRatio]
  exact ofUnitsRatio_eq_finite ((unitsOfScaled_eq digits scale).symm.trans h) hfits

/-- A magnitude with its sign. -/
def signed (neg : Bool) (q : ℚ) : ℚ :=
  if neg then -q else q

theorem abs_signed_sub (neg : Bool) (a b : ℚ) : |signed neg a - signed neg b| = |a - b| := by
  cases neg with
  | false => rfl
  | true => rw [signed, signed, if_pos rfl, if_pos rfl, neg_sub_neg, abs_sub_comm]

/-- Zero is nearer than any number of the other sign. -/
theorem abs_sub_le_abs_signed_sub {s : Bool} (hs : s ≠ neg) {a b : ℚ} (ha : 0 ≤ a) (hb : 0 ≤ b) :
    |0 - b| ≤ |signed s a - signed neg b| := by
  rw [zero_sub, abs_neg, abs_of_nonneg hb, le_abs]
  cases neg with
  | false =>
      obtain rfl : s = true := Bool.eq_true_of_not_eq_false hs
      right
      simp only [signed, if_true, Bool.false_eq_true, if_false]
      linarith
  | true =>
      obtain rfl : s = false := Bool.eq_false_of_not_eq_true hs
      left
      simp only [signed, if_true, Bool.false_eq_true, if_false]
      linarith

theorem rank_finite (neg : Bool) (units : Nat) (h : Fits units) :
    rank (.finite neg units h) = if neg then -(units : Int) else units := by
  cases neg <;> rfl

theorem value_finite (neg : Bool) (units : Nat) (h : Fits units) :
    value (.finite neg units h) = signed neg (units / unitsPerOne) := by
  rw [value, rank_finite, signed]
  split
  · rw [Int.cast_neg, Int.cast_natCast, neg_div]
  · rw [Int.cast_natCast]

theorem abs_div_sub_div (a b : ℚ) :
    |a / unitsPerOne - b / unitsPerOne| = |a - b| / unitsPerOne := by
  rw [← sub_div, abs_div, abs_of_pos cast_unitsPerOne_pos]

/-- No magnitude of 53 bits is nearer to a decimal than the one that it is rounded to. -/
theorem abs_unitsOfScaled_sub_le (digits : Nat) (exponent : Int) {u : Nat} (hu : Representable u) :
    |(roundUnits (decimalRatio digits exponent).1 (decimalRatio digits exponent).2 : ℚ) /
        unitsPerOne - digits * 10 ^ exponent| ≤
      |(u : ℚ) / unitsPerOne - digits * 10 ^ exponent| := by
  have hone := cast_unitsPerOne_pos
  have hscale : ∀ q : ℚ, |q / unitsPerOne - digits * 10 ^ exponent| =
      |q - digits * 10 ^ exponent * unitsPerOne| / unitsPerOne := by
    intro q
    rw [← abs_div_sub_div, mul_div_cancel_right₀ _ hone.ne']
  have hbest := abs_roundUnits_sub_le (decimalRatio digits exponent).1
    (decimalRatio_pos digits exponent) hu
  rw [cast_decimalRatio] at hbest
  rw [hscale, hscale]
  exact div_le_div_of_nonneg_right hbest hone.le

/-- No finite double is nearer to a decimal than the one that it is rounded to. -/
theorem abs_value_ofDecimal_sub_le (hfinite : (ofDecimal neg digits exponent).isFinite = true)
    {y : Binary64} (hy : y.isFinite = true) :
    |(ofDecimal neg digits exponent).value - signed neg (digits * 10 ^ exponent)| ≤
      |y.value - signed neg (digits * 10 ^ exponent)| := by
  rw [ofDecimal_eq_ofUnitsRatio] at hfinite ⊢
  obtain ⟨hfits, heq⟩ := exists_ofUnitsRatio_eq hfinite
  rw [heq, value_finite, abs_signed_sub]
  cases y with
  | infinite => cases hy
  | nan => cases hy
  | finite s r hr =>
      rw [value_finite]
      by_cases hs : s = neg
      · rw [hs, abs_signed_sub]
        exact abs_unitsOfScaled_sub_le digits exponent hr.2
      · -- A double on the other side of zero is no nearer than zero.
        have hr' : (0 : ℚ) ≤ r / unitsPerOne :=
          div_nonneg (Nat.cast_nonneg r) cast_unitsPerOne_pos.le
        have hexact : (0 : ℚ) ≤ digits * 10 ^ exponent :=
          mul_nonneg (Nat.cast_nonneg _) (zpow_nonneg (by norm_num) _)
        refine le_trans ?_ (abs_sub_le_abs_signed_sub hs hr' hexact)
        have hzero := abs_unitsOfScaled_sub_le digits exponent .zero
        rwa [Nat.cast_zero, zero_div] at hzero

theorem signed_natAbs (n : Int) : signed (n < 0) n.natAbs = n := by
  rw [signed, Nat.cast_natAbs]
  rcases lt_or_ge n 0 with h | h
  · rw [decide_eq_true h, if_pos rfl, abs_of_neg h, Int.cast_neg, neg_neg]
  · rw [decide_eq_false (not_lt.2 h), if_neg Bool.false_ne_true, abs_of_nonneg h]

theorem ofInt_eq_ofDecimal (n : Int) : ofInt n = ofDecimal (n < 0) n.natAbs 0 := by
  rw [ofDecimal_eq_ofUnitsRatio, decimalRatio, if_pos le_rfl, ofInt, ofRatio, Int.toNat_zero,
    tenPow_eq, Nat.pow_zero, Nat.mul_one]

end Decimals

end TableQuery.Binary64
