import Mathlib.Tactic.Ring
import TableQuery.Proofs.Binary64.Decimal
import TableQuery.Proofs.Binary64.Numeral

/-!
# Printed numbers

Positional and scientific notation are numerals of the value of their digits. Zeros that fill up
the digits on either side do not change it.
-/

namespace TableQuery.Binary64

open TableQuery.Text

/-- The text is a numeral of the value of a decimal. -/
def Denotes (s : List Char) (digits : Nat) (exponent : Int) : Prop :=
  ∃ n e, Spells s n e ∧ (n : ℚ) * 10 ^ e = digits * 10 ^ exponent

theorem Spells.denotes {s : List Char} {n : Nat} {e : Int} (h : Spells s n e) : Denotes s n e :=
  ⟨n, e, h, rfl⟩

theorem mul_tenPow_mul_zpow (n k : Nat) (e : Int) :
    ((n * 10 ^ k : Nat) : ℚ) * 10 ^ e = n * 10 ^ (k + e) := by
  rw [Nat.cast_mul, Nat.cast_pow, zpow_add₀ (by norm_num), zpow_natCast, mul_assoc]
  rfl

theorem spells_toDigits (n : Nat) : Spells (Nat.toDigits 10 n) n 0 := by
  have h := Spells.whole (isDigits_toDigits n) .none
  rw [List.append_nil, digitsValue_toDigits] at h
  exact h

theorem isDigits_append_zeros {s : List Char} (h : IsDigits s) (k : Nat) :
    IsDigits (s ++ List.replicate k '0') :=
  ⟨List.append_ne_nil_of_left_ne_nil h.ne_nil _, forall_isAsciiDigit_append_zeros h.digits k⟩

/-- The digits with a point behind the first when others follow. -/
def mantissa : List Char → List Char
  | [] => []
  | [d] => [d]
  | d :: ds => d :: '.' :: ds

theorem scientific_eq_mantissa (digits : List Char) (point : Int) :
    scientific digits point = mantissa digits ++ exponentText (point - 1) := by
  match digits with
  | [] => rfl
  | [d] => rfl
  | d :: c :: ds => rfl

/-- An exponent is a mark, a sign and the digits of its size. -/
theorem tail_of_natAbs {mark : Char} {ds : List Char} {e : Int} (hmark : mark = 'e' ∨ mark = 'E')
    (hds : IsDigits ds) (hvalue : digitsValue ds = e.natAbs) :
    Tail (mark :: (if e < 0 then '-' else '+') :: ds) e := by
  rcases lt_or_ge e 0 with h | h
  · have htail := Tail.exponent hmark hds true
    have hexponent : -(digitsValue ds : Int) = e := by omega
    rw [if_pos rfl, if_pos rfl, hexponent] at htail
    rw [if_pos h]
    exact htail
  · have htail := Tail.exponent hmark hds false
    have hexponent : (digitsValue ds : Int) = e := by omega
    rw [if_neg Bool.false_ne_true, if_neg Bool.false_ne_true, hexponent] at htail
    rw [if_neg (not_lt.2 h)]
    exact htail

theorem tail_exponentText (e : Int) : Tail (exponentText e) e :=
  tail_of_natAbs (.inl rfl) (isDigits_padded 2 e.natAbs) (digitsValue_padded 2 e.natAbs)

section Notation

variable {digits : List Char} (h : IsDigits digits)
include h

/-- Digits behind the point and as many zeros. -/
theorem spells_fraction (k : Nat) :
    Spells ('0' :: '.' :: (List.replicate k '0' ++ digits)) (digitsValue digits)
      (-(k + digits.length : Nat)) := by
  have hzero : IsDigits ['0'] := isDigits_toDigits 0
  have hspells := Spells.point hzero (forall_isAsciiDigit_zeros_append h.digits k) .none
  have hvalue : digitsValue (['0'] ++ (List.replicate k '0' ++ digits)) = digitsValue digits := by
    rw [← List.append_assoc, ← List.replicate_one, List.replicate_append_replicate,
      digitsValue_zeros_append h.digits]
  rw [hvalue, List.append_nil, List.length_append, List.length_replicate, zero_sub] at hspells
  exact hspells

/-- Digits before the point and as many zeros, and maybe one zero behind the point. -/
theorem denotes_whole (k : Nat) {tail : List Char} (htail : tail = [] ∨ tail = ['.', '0']) :
    Denotes (digits ++ List.replicate k '0' ++ tail) (digitsValue digits) k := by
  have hwhole := isDigits_append_zeros h k
  rcases htail with rfl | rfl
  · refine ⟨_, _, .whole hwhole .none, ?_⟩
    rw [digitsValue_append_zeros h.digits, mul_tenPow_mul_zpow, add_zero]
  · refine ⟨_, _, .point hwhole (isDigits_toDigits 0).digits .none, ?_⟩
    have hzeros : digits ++ List.replicate k '0' ++ Nat.toDigits 10 0 =
        digits ++ List.replicate (k + 1) '0' := by
      rw [List.append_assoc, List.replicate_succ']
      rfl
    have hlength : (Nat.toDigits 10 0).length = 1 := rfl
    rw [hzeros, hlength, digitsValue_append_zeros h.digits, mul_tenPow_mul_zpow]
    congr 2
    omega

/-- The point among the digits. -/
theorem spells_split {k : Nat} (hk : k ≠ 0) :
    Spells (digits.take k ++ '.' :: digits.drop k) (digitsValue digits)
      (-(digits.length - k : Nat)) := by
  have hwhole : IsDigits (digits.take k) := by
    refine ⟨fun hnil => ?_, fun c hc => h.digits c (List.mem_of_mem_take hc)⟩
    exact (List.take_eq_nil_iff.1 hnil).elim hk h.ne_nil
  have hspells := Spells.point hwhole
    (fun c (hc : c ∈ digits.drop k) => h.digits c (List.mem_of_mem_drop hc)) .none
  rw [List.take_append_drop, List.append_nil, List.length_drop, zero_sub] at hspells
  exact hspells

/-- In positional notation the digits stand around the point. -/
theorem denotes_positional (point : Int) {tail : List Char}
    (htail : tail = [] ∨ tail = ['.', '0']) :
    Denotes (positional digits point tail) (digitsValue digits) (point - digits.length) := by
  rw [positional]
  split
  · next hpoint =>
      have hspells := spells_fraction h (-point).toNat
      have hexponent : -(((-point).toNat + digits.length : Nat) : Int) =
          point - digits.length := by omega
      rw [hexponent] at hspells
      exact hspells.denotes
  · next hpoint =>
      dsimp only
      split
      · next hlength =>
          have hwhole := denotes_whole h (point.toNat - digits.length) htail
          have hexponent : ((point.toNat - digits.length : Nat) : Int) =
              point - digits.length := by omega
          rw [hexponent] at hwhole
          exact hwhole
      · next hlength =>
          have hspells := spells_split h (k := point.toNat) (by omega)
          have hexponent : -((digits.length - point.toNat : Nat) : Int) =
              point - digits.length := by omega
          rw [hexponent] at hspells
          exact hspells.denotes

/-- In scientific notation the first digit stands before the point. -/
theorem denotes_mantissa {tail : List Char} {e : Int} (htail : Tail tail e) :
    Denotes (mantissa digits ++ tail) (digitsValue digits) (e + 1 - digits.length) := by
  match digits, h with
  | [], h => exact absurd rfl h.ne_nil
  | [d], h =>
      have hspells := Spells.whole h htail
      have hexponent : e + 1 - ([d].length : Int) = e := by
        rw [List.length_singleton]
        omega
      rw [hexponent]
      exact hspells.denotes
  | d :: c :: ds, h =>
      obtain ⟨hd, hds⟩ := List.forall_mem_cons.1 h.digits
      have hwhole : IsDigits [d] := ⟨List.cons_ne_nil _ _, by simpa using hd⟩
      have hspells := Spells.point hwhole hds htail
      have hexponent : e + 1 - ((d :: c :: ds).length : Int) = e - (c :: ds).length := by
        rw [List.length_cons]
        omega
      rw [hexponent]
      exact hspells.denotes

theorem denotes_scientific (point : Int) :
    Denotes (scientific digits point) (digitsValue digits) (point - digits.length) := by
  have hmantissa := denotes_mantissa h (tail_exponentText (point - 1))
  rw [sub_add_cancel] at hmantissa
  rw [scientific_eq_mantissa]
  exact hmantissa

end Notation

end TableQuery.Binary64
