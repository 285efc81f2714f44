import TableQuery.Proofs.Binary64.RoundTrip

/-!
# Integers as doubles

An integer is rounded as a number of units is, to an integer of at most 53 bits behind which only
zeros stand. Up to `2 ^ 53` nothing is lost, beyond it at most one part in `2 ^ 53`, and from
halfway between the largest double and `2 ^ 1024` on there is no double for it.
-/

namespace TableQuery.Binary64

theorem log2_mul_twoPow {m : Nat} (h : m ≠ 0) (k : Nat) :
    (m * twoPow k).log2 = m.log2 + k := by
  induction k with
  | zero => rw [twoPow_eq, Nat.pow_zero, Nat.mul_one, Nat.add_zero]
  | succ k ih =>
      have hne : m * twoPow k ≠ 0 := Nat.mul_ne_zero h (Nat.two_pow_pos k).ne'
      rw [twoPow_eq, Nat.pow_succ, ← twoPow_eq, ← Nat.mul_assoc, Nat.mul_comm, Nat.log2_two_mul hne,
        ih, Nat.add_assoc]

theorem le_log2 {m k : Nat} (h : twoPow k ≤ m) : k ≤ m.log2 := by
  by_contra hlt
  have hm : m < twoPow k :=
    Nat.lt_log2_self.trans_le (Nat.pow_le_pow_right Nat.two_pos (Nat.lt_of_not_le hlt))
  exact absurd hm (Nat.not_lt.2 h)

section Magnitudes

variable {m : Nat}

theorem representable_of_lt (h : m < twoPow 53) : Representable m :=
  ⟨m, 0, h, by rw [twoPow_eq 0, Nat.pow_zero, Nat.mul_one]⟩

theorem representable_mul_twoPow (h : Representable m) (k : Nat) :
    Representable (m * twoPow k) := by
  obtain ⟨n, j, hn, rfl⟩ := h
  exact ⟨n, j + k, hn, by rw [twoPow_eq, twoPow_eq, twoPow_eq, pow_add, Nat.mul_assoc]⟩

theorem roundUnits_one_of_representable (h : Representable m) : roundUnits m 1 = m :=
  roundUnits_eq_self Nat.one_pos h (by rw [Nat.cast_one, div_one])

/-- A power of two in front of rounding stands behind it as well. -/
theorem roundUnits_mul_twoPow (m k : Nat) :
    roundUnits (m * twoPow k) 1 = roundUnits m 1 * twoPow k := by
  by_cases hm : m < twoPow 53
  · have hrep := representable_of_lt hm
    rw [roundUnits_one_of_representable hrep,
      roundUnits_one_of_representable (representable_mul_twoPow hrep k)]
  · have hne : m ≠ 0 := by
      rintro rfl
      exact hm (Nat.two_pow_pos 53)
    have hlog : 53 ≤ m.log2 := le_log2 (Nat.le_of_not_lt hm)
    have hshift : shiftOf (m * twoPow k) = k + shiftOf m := by
      rw [shiftOf, shiftOf, log2_mul_twoPow hne]
      omega
    have hplace : twoPow (k + shiftOf m) = twoPow k * twoPow (shiftOf m) := Nat.pow_add 2 _ _
    have hpos : 0 < twoPow k := Nat.two_pow_pos k
    simp only [roundUnits, Nat.div_one, Nat.one_mul, hshift, hplace]
    rw [Nat.mul_comm m, roundDiv_mul_left hpos, Nat.mul_assoc,
      Nat.mul_comm (twoPow k)]

theorem roundUnits_mul_unitsPerOne (m : Nat) :
    roundUnits (m * unitsPerOne) 1 = roundUnits m 1 * unitsPerOne := by
  rw [unitsPerOne_eq]
  exact roundUnits_mul_twoPow m 1074

/-- Rounding moves a number by at most one part in `2 ^ 53`. -/
theorem abs_roundUnits_one_sub_le (m : Nat) : 2 ^ 53 * |(roundUnits m 1 : ℚ) - m| ≤ m := by
  by_cases hm : m < twoPow 53
  · rw [roundUnits_one_of_representable (representable_of_lt hm), sub_self, abs_zero, mul_zero]
    exact Nat.cast_nonneg m
  · have hlog : 53 ≤ m.log2 := le_log2 (Nat.le_of_not_lt hm)
    have hshift : shiftOf (m / 1) ≠ 0 := by
      rw [shiftOf, Nat.div_one]
      omega
    have hlow := twoPow_shiftOf_le_ratio hshift
    have hpos : 0 < twoPow (shiftOf m) := Nat.two_pow_pos _
    have hnear := abs_roundDiv_sub_le m hpos
    have hpow := cast_twoPow_pos (shiftOf m)
    rw [Nat.div_one, Nat.cast_one, div_one, cast_twoPow, pow_add] at hlow
    have hround : (roundUnits m 1 : ℚ) - m =
        twoPow (shiftOf m) * (roundDiv m (twoPow (shiftOf m)) - m / twoPow (shiftOf m)) := by
      rw [mul_sub, mul_div_cancel₀ _ hpow.ne', roundUnits, Nat.div_one, Nat.one_mul, Nat.cast_mul,
        mul_comm]
    rw [hround, abs_mul, abs_of_pos hpow]
    rw [cast_twoPow] at hpow hnear ⊢
    nlinarith

/-- The last place of 53 bits is odd, so a tie above it goes up as well. -/
theorem roundDiv_of_half {c : Nat} (hlow : 18014398509481984 * c ≤ m + c)
    (hhigh : m < 18014398509481984 * c) : roundDiv m (2 * c) = 9007199254740992 := by
  have hquotient : m / (2 * c) = 9007199254740991 ∧
      m % (2 * c) = m - 9007199254740991 * (2 * c) := by
    rw [Nat.div_mod_unique (by omega)]
    omega
  have hodd : ¬9007199254740991 % 2 = 0 := by decide
  simp only [roundDiv, hquotient, if_neg hodd]
  split_ifs <;> omega

theorem twoPow_add_fiftyFour (j : Nat) : twoPow (j + 54) = 18014398509481984 * twoPow j := by
  rw [Nat.add_comm]
  exact Nat.pow_add 2 54 j

/-- From half a place below a power of two on, numbers are rounded up to it. -/
theorem roundUnits_one_of_half {j : Nat} (hlow : twoPow (j + 54) ≤ m + twoPow j)
    (hhigh : m < twoPow (j + 54)) : roundUnits m 1 = twoPow (j + 54) := by
  have hlog : m.log2 = j + 53 := by
    have hj : 0 < twoPow j := Nat.two_pow_pos j
    have htop : twoPow (j + 54) = twoPow (j + 53) * 2 := Nat.pow_succ 2 (j + 53)
    have hle : twoPow j ≤ twoPow (j + 53) := Nat.pow_le_pow_right Nat.two_pos (by omega)
    have hm : m ≠ 0 := by omega
    rw [Nat.log2_eq_iff hm]
    exact ⟨show twoPow (j + 53) ≤ m by omega, hhigh⟩
  have hshift : shiftOf m = 1 + j := by
    rw [shiftOf, hlog]
    omega
  have hbits : twoPow 53 = 9007199254740992 := rfl
  rw [twoPow_add_fiftyFour] at hlow hhigh
  have hplace : twoPow (1 + j) = 2 * twoPow j := Nat.pow_add 2 1 j
  rw [roundUnits, Nat.div_one, Nat.one_mul, hshift, hplace, roundDiv_of_half hlow hhigh,
    twoPow_add_fiftyFour]
  omega

end Magnitudes

section Powers

variable {num den j : Nat} (h : 0 < den)
include h

/-- The last magnitude before a power of two is nearer than the power as long as more than half a
place is missing. -/
theorem roundUnits_lt_of_half (hlt : (num : ℚ) / den + twoPow j < twoPow (j + 54)) :
    roundUnits num den < twoPow (j + 54) := by
  by_contra hlow
  have hlast : Representable (9007199254740991 * twoPow (1 + j)) :=
    ⟨9007199254740991, 1 + j, by decide, rfl⟩
  have hnear := abs_roundUnits_sub_le num h hlast
  have hplace : twoPow (1 + j) = 2 * twoPow j := Nat.pow_add 2 1 j
  rw [hplace] at hnear
  have hpos := cast_twoPow_pos j
  rw [twoPow_add_fiftyFour] at hlt hlow
  generalize twoPow j = c, (num : ℚ) / den = q at *
  have hround : (18014398509481984 : ℚ) * c ≤ roundUnits num den := by
    exact_mod_cast Nat.le_of_not_lt hlow
  push_cast at hlt hnear
  have habove := le_abs_self ((roundUnits num den : ℚ) - q)
  rcases abs_cases ((9007199254740991 : ℚ) * (2 * c) - q) with ⟨heq, -⟩ | ⟨heq, -⟩ <;> linarith

/-- Ratios are rounded to less than a power of two exactly when more than half a place is
missing. -/
theorem roundUnits_lt_iff :
    roundUnits num den < twoPow (j + 54) ↔ (num : ℚ) / den + twoPow j < twoPow (j + 54) := by
  refine ⟨fun hlt => ?_, roundUnits_lt_of_half h⟩
  by_contra hhalf
  -- From the integer in the middle of the last place on, ratios are rounded to the power.
  have hle : twoPow j ≤ twoPow (j + 54) := Nat.pow_le_pow_right Nat.two_pos (by omega)
  have hmiddle : roundUnits (twoPow (j + 54) - twoPow j) 1 = twoPow (j + 54) :=
    roundUnits_one_of_half (by omega) (Nat.sub_lt (Nat.two_pow_pos _) (Nat.two_pow_pos _))
  have hratio : ((twoPow (j + 54) - twoPow j : Nat) : ℚ) / (1 : Nat) ≤ num / den := by
    rw [Nat.cast_one, div_one, Nat.cast_sub hle]
    linarith
  have hmono := roundUnits_mono Nat.one_pos h hratio
  rw [hmiddle] at hmono
  exact absurd hlt (Nat.not_lt.2 hmono)

end Powers

theorem roundUnits_one_lt_iff {m j : Nat} :
    roundUnits m 1 < twoPow (j + 54) ↔ m + twoPow j < twoPow (j + 54) := by
  rw [roundUnits_lt_iff Nat.one_pos, Nat.cast_one, div_one]
  exact_mod_cast Iff.rfl

/-- The integer nearest to a given one among those of 53 bits with zeros behind them. -/
def roundInt (n : Int) : Int :=
  if n < 0 then -(roundUnits n.natAbs 1 : Int) else roundUnits n.natAbs 1

section Integers

variable {m n : Int}

theorem natAbs_roundInt (n : Int) : (roundInt n).natAbs = roundUnits n.natAbs 1 := by
  rw [roundInt]
  split <;> omega

theorem representable_roundInt (n : Int) : Representable (roundInt n).natAbs := by
  rw [natAbs_roundInt]
  exact exists_roundUnits n.natAbs 1

theorem roundInt_neg_iff : roundInt n < 0 ↔ n < 0 := by
  rw [roundInt]
  split
  · next h =>
      have hpos := roundUnits_pos (Int.natAbs_pos.2 h.ne)
      omega
  · omega

theorem cast_roundInt (n : Int) : (roundInt n : ℚ) = signed (n < 0) (roundUnits n.natAbs 1) := by
  rw [← signed_natAbs, natAbs_roundInt, decide_eq_decide.2 roundInt_neg_iff]

theorem roundInt_eq_self_iff : roundInt n = n ↔ Representable n.natAbs := by
  constructor
  · intro h
    rw [← h]
    exact representable_roundInt n
  · intro h
    have hround := roundUnits_one_of_representable h
    rw [roundInt]
    split <;> omega

theorem representable_of_le (h : |n| ≤ 2 ^ 53) : Representable n.natAbs := by
  have hnat : n.natAbs ≤ twoPow 53 := by
    have hbits : (twoPow 53 : Int) = 2 ^ 53 := rfl
    rw [Int.abs_eq_natAbs, ← hbits] at h
    exact_mod_cast h
  rcases hnat.lt_or_eq with hlt | heq
  · exact representable_of_lt hlt
  · rw [heq]
    exact .twoPow 53

theorem cast_abs_roundInt_sub (n : Int) :
    ((|roundInt n - n| : Int) : ℚ) = |(roundUnits n.natAbs 1 : ℚ) - n.natAbs| := by
  rw [Int.cast_abs, Int.cast_sub, cast_roundInt, ← signed_natAbs n, abs_signed_sub]

/-- No integer of 53 bits with zeros behind them is nearer than the rounded one. -/
theorem abs_roundInt_sub_le (hm : Representable m.natAbs) : |roundInt n - n| ≤ |m - n| := by
  have hnear {u : Nat} (hu : Representable u) :
      ((|roundInt n - n| : Int) : ℚ) ≤ |(u : ℚ) - n.natAbs| := by
    have h := abs_roundUnits_sub_le n.natAbs Nat.one_pos hu
    rwa [Nat.cast_one, div_one, ← cast_abs_roundInt_sub] at h
  have hcast : ((|m - n| : Int) : ℚ) =
      |signed (m < 0) m.natAbs - signed (n < 0) n.natAbs| := by
    rw [Int.cast_abs, Int.cast_sub, signed_natAbs, signed_natAbs]
  rw [← Int.cast_le (R := ℚ), hcast]
  by_cases hsign : decide (m < 0) = decide (n < 0)
  · rw [hsign, abs_signed_sub]
    exact hnear hm
  · -- An integer on the other side of zero is no nearer than zero.
    have hzero := hnear .zero
    rw [Nat.cast_zero] at hzero
    exact hzero.trans
      (abs_sub_le_abs_signed_sub hsign (Nat.cast_nonneg m.natAbs) (Nat.cast_nonneg n.natAbs))

theorem mul_abs_roundInt_sub_le (n : Int) : 2 ^ 53 * |roundInt n - n| ≤ |n| := by
  have h := abs_roundUnits_one_sub_le n.natAbs
  rw [← cast_abs_roundInt_sub, Nat.cast_natAbs] at h
  exact_mod_cast h

/-- Rounding keeps the order of integers, but may make them equal. -/
theorem roundInt_mono (h : m ≤ n) : roundInt m ≤ roundInt n := by
  have hm : |roundInt m - m| ≤ |roundInt n - m| := abs_roundInt_sub_le (representable_roundInt n)
  have hn : |roundInt n - n| ≤ |roundInt m - n| := abs_roundInt_sub_le (representable_roundInt m)
  rcases h.lt_or_eq with hlt | rfl
  · by_contra hswap
    -- The middle of the two is not behind `m` and not before `n`.
    rw [Int.abs_eq_natAbs, Int.abs_eq_natAbs] at hm hn
    have hlow : roundInt m + roundInt n ≤ 2 * m := by omega
    have hhigh : 2 * n ≤ roundInt m + roundInt n := by omega
    omega
  · exact le_rfl

theorem ofInt_eq (n : Int) :
    ofInt n = ofUnitsRatio (n < 0) (n.natAbs * unitsPerOne) 1 := rfl

theorem isFinite_ofUnitsRatio_iff {neg : Bool} {num den : Nat} :
    (ofUnitsRatio neg num den).isFinite = true ↔ roundUnits num den < limit := by
  rw [ofUnitsRatio]
  split
  · next h => exact iff_of_true rfl h
  · next h => exact iff_of_false Bool.false_ne_true h

/-- An integer has a double unless it is nearer to `2 ^ 1024` than to the largest one. -/
theorem isFinite_ofInt_iff : (ofInt n).isFinite = true ↔ n.natAbs + twoPow 970 < twoPow 1024 := by
  have hlimit : limit = twoPow 1024 * unitsPerOne := by
    have hadd : ∀ j k, twoPow (j + k) = twoPow j * twoPow k := Nat.pow_add 2
    rw [unitsPerOne_eq]
    exact limit_eq.trans (hadd 1024 1074)
  rw [ofInt_eq, isFinite_ofUnitsRatio_iff, roundUnits_mul_unitsPerOne, hlimit,
    Nat.mul_lt_mul_right unitsPerOne_pos]
  exact roundUnits_one_lt_iff (j := 970)

theorem isFinite_ofInt_int64 (n : Int64) : (ofInt n.toInt).isFinite = true := by
  have hbound : 2 ^ 63 + twoPow 970 < twoPow 1024 := by decide +kernel
  have hlow := n.le_toInt
  have hhigh := n.toInt_lt
  rw [isFinite_ofInt_iff]
  generalize twoPow 970 = p, twoPow 1024 = q at hbound ⊢
  omega

theorem exists_ofInt_eq (h : (ofInt n).isFinite = true) : ∃ hfits,
    ofInt n = .finite (n < 0) ((roundInt n).natAbs * unitsPerOne) hfits := by
  have hunits : roundUnits (n.natAbs * unitsPerOne) 1 = (roundInt n).natAbs * unitsPerOne := by
    rw [roundUnits_mul_unitsPerOne, natAbs_roundInt]
  have hrep := exists_roundUnits (n.natAbs * unitsPerOne) 1
  rw [hunits] at hrep
  rw [ofInt_eq, isFinite_ofUnitsRatio_iff, hunits] at h
  rw [ofInt_eq]
  exact ⟨⟨h, hrep⟩, ofUnitsRatio_eq_finite hunits ⟨h, hrep⟩⟩

theorem toInt?_ofInt (h : (ofInt n).isFinite = true) : (ofInt n).toInt? = some (roundInt n) := by
  obtain ⟨hfits, heq⟩ := exists_ofInt_eq h
  have hsign := roundInt_neg_iff (n := n)
  rw [heq, toInt?, Nat.mul_mod_left, if_pos rfl, Nat.mul_div_cancel _ unitsPerOne_pos,
    Option.some.injEq]
  split <;> rename_i hneg <;> rw [decide_eq_true_eq] at hneg <;> omega

theorem rank_ofInt (h : (ofInt n).isFinite = true) :
    (ofInt n).rank = roundInt n * (unitsPerOne : Int) := by
  obtain ⟨hfits, heq⟩ := exists_ofInt_eq h
  have hsign := roundInt_neg_iff (n := n)
  rw [heq, rank_finite, Nat.cast_mul]
  split <;> rename_i hneg <;> rw [decide_eq_true_eq] at hneg
  · rw [Int.ofNat_natAbs_of_nonpos (by omega), neg_mul, neg_neg]
  · rw [Int.natAbs_of_nonneg (by omega)]

theorem same_ofInt_iff (hm : (ofInt m).isFinite = true) (hn : (ofInt n).isFinite = true) :
    (ofInt m).same (ofInt n) = true ↔ roundInt m = roundInt n := by
  have hone : (unitsPerOne : Int) ≠ 0 := Int.natCast_ne_zero.2 unitsPerOne_pos.ne'
  rw [same, isNan_of_isFinite hm, isNan_of_isFinite hn, rank_ofInt hm, rank_ofInt hn,
    Bool.not_false, Bool.and_self, Bool.true_and, beq_iff_eq]
  exact Int.mul_eq_mul_right_iff hone

theorem ofInt_eq_ofInt_iff (hm : (ofInt m).isFinite = true) (hn : (ofInt n).isFinite = true) :
    ofInt m = ofInt n ↔ roundInt m = roundInt n := by
  constructor
  · intro h
    have hint := toInt?_ofInt hm
    rw [h, toInt?_ofInt hn, Option.some.injEq] at hint
    exact hint.symm
  · intro h
    obtain ⟨hfits, heq⟩ := exists_ofInt_eq hm
    obtain ⟨hfits', heq'⟩ := exists_ofInt_eq hn
    have hsign : m < 0 ↔ n < 0 := by rw [← roundInt_neg_iff, h, roundInt_neg_iff]
    rw [heq, heq']
    simp only [h, hsign]

theorem value_of_toInt? {x : Binary64} (h : x.toInt? = some n) : x.value = n := by
  cases x with
  | infinite => cases h
  | nan => cases h
  | finite neg units hfits =>
      obtain ⟨hunits, hsign⟩ := units_of_toInt? h
      have hone := cast_unitsPerOne_pos
      have hvalue : (units : ℚ) / unitsPerOne = n.natAbs := by
        rw [← hunits, Nat.cast_mul, mul_div_cancel_right₀ _ hone.ne']
      rw [value_finite, hvalue]
      rcases eq_or_ne units 0 with rfl | hne
      · have hn : n = 0 := by
          rw [mul_eq_zero, or_iff_left unitsPerOne_pos.ne'] at hunits
          exact Int.natAbs_eq_zero.1 hunits
        rw [hn, signed]
        simp
      · rw [← hsign hne, signed_natAbs]

end Integers

end TableQuery.Binary64
