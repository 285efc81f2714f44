import TableQuery.Decimal
import TableQuery.Proofs.Binary64.Shortest

/-!
# Printed doubles are read back

Every text of a finite double, of an integer and of a decimal is a numeral, and is read as the
number that it was printed from. A zero loses its sign where it is printed without a fraction.
-/

namespace TableQuery.Binary64

open TableQuery.Text

/-- The text is a numeral that is read as the number, but for the sign of a zero. -/
def IsNumeralOf (s : String) (x : Binary64) : Prop :=
  ∃ negative chars n e, s = String.ofList (signText negative ++ chars) ∧ Spells chars n e ∧
    (ofDecimal negative n e).isFinite = true ∧ (ofDecimal negative n e).same x = true

theorem same_self {x : Binary64} (h : x.isFinite = true) : x.same x = true := by
  cases x with
  | finite => simp [same, isNan]
  | infinite => cases h
  | nan => cases h

theorem Denotes.isNumeralOf {chars : List Char} {digits : Nat} {exponent : Int} {x : Binary64}
    (h : Denotes chars digits exponent) (negative : Bool)
    (hread : ofDecimal negative digits exponent = x) (hfinite : x.isFinite = true) :
    IsNumeralOf (String.ofList (signText negative ++ chars)) x := by
  obtain ⟨n, e, hspells, hvalue⟩ := h
  have heq : ofDecimal negative n e = x := (ofDecimal_congr negative hvalue).trans hread
  refine ⟨negative, chars, n, e, rfl, hspells, ?_, ?_⟩
  · rw [heq]
    exact hfinite
  · rw [heq]
    exact same_self hfinite

namespace IsNumeralOf

variable {s : String} {x : Binary64} (h : IsNumeralOf s x)
include h

theorem number? : ∃ y, number? s = some y ∧ y.same x = true := by
  obtain ⟨negative, chars, n, e, rfl, hspells, hfinite, hsame⟩ := h
  exact ⟨_, number?_signText hspells negative hfinite, hsame⟩

theorem of_same {y : Binary64} (hy : x.same y = true) : IsNumeralOf s y := by
  obtain ⟨negative, chars, n, e, hs, hspells, hfinite, hsame⟩ := h
  refine ⟨negative, chars, n, e, hs, hspells, hfinite, ?_⟩
  simp only [same, Bool.and_eq_true, beq_iff_eq] at hsame hy ⊢
  exact ⟨⟨hsame.1.1, hy.1.2⟩, hsame.2.trans hy.2⟩

end IsNumeralOf

/-- Whole numbers in the finite range are read back from their digits. -/
theorem isNumeralOf_intText {n : Int} (hfinite : (ofInt n).isFinite = true) :
    IsNumeralOf (intText n) (ofInt n) := by
  rw [ofInt_eq_ofDecimal] at hfinite ⊢
  exact (spells_toDigits n.natAbs).denotes.isNumeralOf _ rfl hfinite

theorem isNumeralOf_literal {x : Binary64} (hfinite : x.isFinite = true) :
    IsNumeralOf x.literal x := by
  cases x with
  | infinite => cases hfinite
  | nan => cases hfinite
  | finite neg units hfits =>
      rw [literal, literalChars]
      split
      · next hzero =>
          subst hzero
          have hdenotes := denotes_whole (isDigits_toDigits 0) 0 (.inr rfl)
          have hread : ofDecimal neg (digitsValue (Nat.toDigits 10 0)) (0 : Nat) =
              .finite neg 0 hfits := if_pos (digitsValue_toDigits 0)
          exact hdenotes.isNumeralOf neg hread rfl
      · next hne =>
          obtain ⟨hdigits, hread⟩ := shortest_spec (Nat.pos_of_ne_zero hne) hfits neg
          exact (denotes_literal hdigits).isNumeralOf neg hread rfl

/-- A number without a fraction is as many units as its integer, and only a zero loses its sign. -/
theorem units_of_toInt? {neg : Bool} {units : Nat} {hfits : Fits units} {n : Int}
    (h : (finite neg units hfits).toInt? = some n) :
    n.natAbs * unitsPerOne = units ∧ (units ≠ 0 → decide (n < 0) = neg) := by
  rw [toInt?] at h
  by_cases hwhole : units % unitsPerOne = 0
  · rw [if_pos hwhole, Option.some.injEq] at h
    have hdiv := Nat.div_mul_cancel (Nat.dvd_of_mod_eq_zero hwhole)
    generalize units / unitsPerOne = q at h hdiv
    have hnatAbs : n.natAbs = q := by
      split at h <;> omega
    refine ⟨by rw [hnatAbs, hdiv], ?_⟩
    intro hne
    have hq : q ≠ 0 := by
      rintro rfl
      rw [Nat.zero_mul] at hdiv
      exact hne hdiv.symm
    cases neg <;> simp at h ⊢ <;> omega
  · rw [if_neg hwhole] at h
    cases h

/-- A number without a fraction is the double of its integer, but for the sign of a zero. -/
theorem same_of_toInt? {x : Binary64} {n : Int} (h : x.toInt? = some n) :
    (ofInt n).isFinite = true ∧ (ofInt n).same x = true := by
  cases x with
  | infinite => cases h
  | nan => cases h
  | finite neg units hfits =>
      obtain ⟨hunits, hsign⟩ := units_of_toInt? h
      have hround : roundUnits (n.natAbs * unitsPerOne) 1 = units := by
        apply roundUnits_eq_self Nat.one_pos hfits.2
        rw [hunits, Nat.cast_one, div_one]
      have hread : ofInt n = .finite (n < 0) units hfits := by
        rw [ofInt, ofRatio]
        exact ofUnitsRatio_eq_finite hround hfits
      rw [hread]
      refine ⟨rfl, ?_⟩
      simp only [same, isNan, Bool.not_false, Bool.and_self, Bool.true_and, beq_iff_eq]
      rcases eq_or_ne units 0 with rfl | hne
      · simp [rank_finite]
      · rw [hsign hne]

/-- The text of a finite double is read back, on either side of the switch between its forms. -/
theorem isNumeralOf_text {x : Binary64} (hfinite : x.isFinite = true) : IsNumeralOf x.text x := by
  rw [text]
  split
  · next n hn =>
      split
      · obtain ⟨hint, hsame⟩ := same_of_toInt? hn
        exact (isNumeralOf_intText hint).of_same hsame
      · exact isNumeralOf_literal hfinite
  · exact isNumeralOf_literal hfinite

theorem finiteText_eq (n : Nat) (e : Int) :
    Decimal.finiteText n e =
      if e ≤ 0 ∧ -6 < e + (Nat.toDigits 10 n).length then
        positional (Nat.toDigits 10 n) (e + (Nat.toDigits 10 n).length) []
      else mantissa (Nat.toDigits 10 n) ++
        Decimal.exponentText (e + (Nat.toDigits 10 n).length - 1) := by
  rw [Decimal.finiteText]
  match Nat.toDigits 10 n with
  | [] => rfl
  | [d] => rfl
  | d :: c :: ds => rfl

theorem denotes_finiteText (n : Nat) (e : Int) : Denotes (Decimal.finiteText n e) n e := by
  have hdigits := isDigits_toDigits n
  rw [finiteText_eq]
  split
  · have hpositional := denotes_positional hdigits (e + (Nat.toDigits 10 n).length) (.inl rfl)
    rw [digitsValue_toDigits, add_sub_cancel_right] at hpositional
    exact hpositional
  · have htail := tail_of_natAbs (.inr rfl)
      (isDigits_toDigits (e + (Nat.toDigits 10 n).length - 1).natAbs) (digitsValue_toDigits _)
    have hmantissa := denotes_mantissa hdigits htail
    rw [digitsValue_toDigits, sub_add_cancel, add_sub_cancel_right] at hmantissa
    exact hmantissa

theorem isNumeralOf_decimal {neg : Bool} {n : Nat} {e : Int}
    (hfinite : (ofDecimal neg n e).isFinite = true) :
    IsNumeralOf (Decimal.finite neg n e).text (ofDecimal neg n e) :=
  (denotes_finiteText n e).isNumeralOf neg rfl hfinite

end TableQuery.Binary64
