import Mathlib.Algebra.Group.Nat.Defs
import Mathlib.Order.Compare
import TableQuery.Proofs.Text.Casing
import TableQuery.Text.Blank
import TableQuery.Text.Digit

/-!
# Numbers in a fixed number of digits

A number that fits into a width is padded to exactly that many digits. Such texts are in the order
of the numbers, and case folding leaves them alone.
-/

namespace TableQuery.Text

/-- The last digits of a number, as many as the width says. -/
def lastDigits : Nat → Nat → List Char
  | 0, _ => []
  | width + 1, n => lastDigits width (n / 10) ++ [(n % 10).digitChar]

theorem length_lastDigits (width n : Nat) : (lastDigits width n).length = width := by
  induction width generalizing n with
  | zero => rfl
  | succ width ih => rw [lastDigits, List.length_append, ih, List.length_singleton]

theorem lastDigits_zero (width : Nat) : lastDigits width 0 = List.replicate width '0' := by
  induction width with
  | zero => rfl
  | succ width ih => rw [lastDigits, Nat.zero_div, ih, List.replicate_succ']; rfl

theorem padded_of_lt_ten {n : Nat} (h : n < 10) (width : Nat) :
    padded (width + 1) n = List.replicate width '0' ++ [n.digitChar] := by
  rw [padded, Nat.toDigits_of_lt_base h]
  rfl

theorem padded_of_ten_le {n : Nat} (h : 10 ≤ n) (width : Nat) :
    padded (width + 1) n = padded width (n / 10) ++ [(n % 10).digitChar] := by
  rw [padded, padded, Nat.toDigits_of_base_le (by decide) h, List.length_append,
    List.length_singleton, Nat.add_sub_add_right, List.append_assoc]

theorem padded_eq_lastDigits {width n : Nat} (h : n < 10 ^ (width + 1)) :
    padded (width + 1) n = lastDigits (width + 1) n := by
  induction width generalizing n with
  | zero =>
      have hn : n < 10 := by simpa using h
      rw [padded_of_lt_ten hn, lastDigits, Nat.mod_eq_of_lt hn]
      rfl
  | succ width ih =>
      rcases Nat.lt_or_ge n 10 with hn | hn
      · rw [padded_of_lt_ten hn, lastDigits, Nat.div_eq_of_lt hn, Nat.mod_eq_of_lt hn,
          lastDigits_zero]
      · have hdiv : n / 10 < 10 ^ (width + 1) :=
          Nat.div_lt_of_lt_mul (by rw [← Nat.pow_succ']; exact h)
        rw [padded_of_ten_le hn, ih hdiv]
        rfl

theorem length_padded {width n : Nat} (h : n < 10 ^ (width + 1)) :
    (padded (width + 1) n).length = width + 1 := by
  rw [padded_eq_lastDigits h, length_lastDigits]

theorem isAsciiDigit_of_mem_padded {width n : Nat} {c : Char} (h : c ∈ padded width n) :
    isAsciiDigit c = true := by
  rcases List.mem_append.1 h with h | h
  · rw [List.eq_of_mem_replicate h]
    rfl
  · exact Nat.isDigit_of_mem_toDigits (by decide) (by decide) h

theorem exists_padded_eq_cons {width n : Nat} (h : n < 10 ^ (width + 1)) :
    ∃ c s, padded (width + 1) n = c :: s ∧ isAsciiDigit c = true := by
  have hne : padded (width + 1) n ≠ [] := by
    rw [← List.length_pos_iff, length_padded h]
    exact Nat.succ_pos width
  obtain ⟨c, s, hs⟩ := List.exists_cons_of_ne_nil hne
  exact ⟨c, s, hs, isAsciiDigit_of_mem_padded (hs ▸ List.mem_cons_self)⟩

theorem forall_of_isAsciiDigit {P : Char → Prop} (h : ∀ n < 58, 48 ≤ n → P (Char.ofNat n))
    (c : Char) (hc : isAsciiDigit c = true) : P c := by
  rw [isAsciiDigit, Bool.and_eq_true, decide_eq_true_eq, decide_eq_true_eq] at hc
  have hP := h c.toNat (Nat.lt_succ_of_le hc.2) hc.1
  rwa [Char.ofNat_toNat] at hP

theorem isBlank_of_isAsciiDigit : ∀ c, isAsciiDigit c = true → isBlank c = false :=
  forall_of_isAsciiDigit (by decide)

theorem isDigit_of_isAsciiDigit : ∀ c, isAsciiDigit c = true → isDigit c = true :=
  forall_of_isAsciiDigit (by decide)

theorem foldChar_of_isAsciiDigit : ∀ c, isAsciiDigit c = true → foldChar c = [c] :=
  forall_of_isAsciiDigit (by decide)

theorem fold_ofList {s : List Char} (h : ∀ c ∈ s, foldChar c = [c]) :
    fold (String.ofList s) = s := by
  rw [fold, String.toList_ofList, List.flatMap_congr h]
  exact List.flatMap_singleton' s

theorem isAsciiDigit_of_mem_toDigits {n : Nat} {c : Char} (h : c ∈ Nat.toDigits 10 n) :
    isAsciiDigit c = true :=
  Nat.isDigit_of_mem_toDigits (by decide) (by decide) h

theorem digitValue?_of_isAsciiDigit {c : Char} (h : isAsciiDigit c = true) :
    digitValue? c = some (c.toNat - '0'.toNat) := by
  rw [isAsciiDigit, Bool.and_eq_true, decide_eq_true_eq, decide_eq_true_eq] at h
  exact if_pos h

theorem digitsValue_eq_ofDigitChars {s : List Char} (h : ∀ c ∈ s, isAsciiDigit c = true) :
    digitsValue s = Nat.ofDigitChars 10 s 0 := by
  rw [digitsValue]
  generalize 0 = n
  induction s generalizing n with
  | nil => rfl
  | cons c s ih =>
      rw [List.forall_mem_cons] at h
      rw [List.foldl_cons, digitValue?_of_isAsciiDigit h.1, Nat.ofDigitChars_cons]
      exact ih h.2 _

theorem digitsValue_toDigits (n : Nat) : digitsValue (Nat.toDigits 10 n) = n := by
  rw [digitsValue_eq_ofDigitChars fun c => isAsciiDigit_of_mem_toDigits,
    Nat.ofDigitChars_ten_toDigits]

theorem forall_isAsciiDigit_append_zeros {s : List Char} (h : ∀ c ∈ s, isAsciiDigit c = true)
    (k : Nat) : ∀ c ∈ s ++ List.replicate k '0', isAsciiDigit c = true := by
  rw [List.forall_mem_append]
  refine ⟨h, fun c hc => ?_⟩
  rw [List.eq_of_mem_replicate hc]
  rfl

/-- Zeros at the end multiply by ten. -/
theorem digitsValue_append_zeros {s : List Char} (h : ∀ c ∈ s, isAsciiDigit c = true) (k : Nat) :
    digitsValue (s ++ List.replicate k '0') = digitsValue s * 10 ^ k := by
  rw [digitsValue_eq_ofDigitChars (forall_isAsciiDigit_append_zeros h k),
    digitsValue_eq_ofDigitChars h, Nat.ofDigitChars_append, Nat.ofDigitChars_replicate_zero,
    Nat.mul_comm]

theorem forall_isAsciiDigit_zeros_append {s : List Char} (h : ∀ c ∈ s, isAsciiDigit c = true)
    (k : Nat) : ∀ c ∈ List.replicate k '0' ++ s, isAsciiDigit c = true := by
  rw [List.forall_mem_append]
  refine ⟨fun c hc => ?_, h⟩
  rw [List.eq_of_mem_replicate hc]
  rfl

/-- Zeros in front change nothing. -/
theorem digitsValue_zeros_append {s : List Char} (h : ∀ c ∈ s, isAsciiDigit c = true) (k : Nat) :
    digitsValue (List.replicate k '0' ++ s) = digitsValue s := by
  rw [digitsValue_eq_ofDigitChars (forall_isAsciiDigit_zeros_append h k),
    digitsValue_eq_ofDigitChars h, Nat.ofDigitChars_append, Nat.ofDigitChars_replicate_zero,
    Nat.mul_zero]

theorem digitsValue_zeros (k : Nat) : digitsValue (List.replicate k '0') = 0 := by
  have hvalue := digitsValue_zeros_append (List.forall_mem_nil _) k
  rwa [List.append_nil] at hvalue

theorem digitsValue_padded (width n : Nat) : digitsValue (padded width n) = n := by
  rw [padded, digitsValue_zeros_append fun c => isAsciiDigit_of_mem_toDigits, digitsValue_toDigits]

theorem digitsValue_lt {s : List Char} (h : ∀ c ∈ s, isAsciiDigit c = true) :
    digitsValue s < 10 ^ s.length := by
  induction s using List.reverseRecOn with
  | nil => exact Nat.one_pos
  | append_singleton s c ih =>
      rw [List.forall_mem_append, List.forall_mem_singleton] at h
      obtain ⟨-, hc⟩ := Bool.and_eq_true_iff.1 h.2
      have hzero : '0'.toNat = 48 := rfl
      rw [decide_eq_true_eq] at hc
      have hlt := ih h.1
      rw [digitsValue, List.foldl_append, ← digitsValue, List.foldl_cons, List.foldl_nil,
        digitValue?_of_isAsciiDigit h.2, List.length_append, List.length_singleton, Nat.pow_succ]
      dsimp only
      omega

/-- The last character is a digit. -/
def EndsInDigit (s : List Char) : Prop :=
  ∃ c ∈ s.getLast?, isAsciiDigit c = true

theorem EndsInDigit.append {s : List Char} (h : EndsInDigit s) (front : List Char) :
    EndsInDigit (front ++ s) := by
  obtain ⟨c, hc, hdigit⟩ := h
  exact ⟨c, by rw [List.getLast?_append, hc]; rfl, hdigit⟩

theorem EndsInDigit.cons {s : List Char} (h : EndsInDigit s) (c : Char) : EndsInDigit (c :: s) :=
  h.append [c]

theorem endsInDigit_padded {width n : Nat} (h : n < 10 ^ (width + 1)) :
    EndsInDigit (padded (width + 1) n) := by
  obtain ⟨c, s, hs, -⟩ := exists_padded_eq_cons h
  have hne : padded (width + 1) n ≠ [] := hs ▸ List.cons_ne_nil c s
  exact ⟨_, List.getLast?_eq_some_getLast hne,
    isAsciiDigit_of_mem_padded (List.getLast_mem hne)⟩

theorem compare_append {α : Type} [Ord α] {xs ys : List α} (h : xs.length = ys.length)
    (s t : List α) : compare (xs ++ s) (ys ++ t) = (compare xs ys).then (compare s t) := by
  induction xs generalizing ys with
  | nil =>
      obtain rfl : ys = [] := List.length_eq_zero_iff.1 h.symm
      rfl
  | cons x xs ih =>
      cases ys with
      | nil => cases h
      | cons y ys =>
          rw [List.cons_append, List.cons_append, List.compare_cons_cons, List.compare_cons_cons,
            ih (Nat.succ.inj h), Ordering.then_assoc]

/-- Numbers are compared by their quotients and then by their remainders. -/
theorem compare_mul_add {k a a' b b' : Nat} (hb : b < k) (hb' : b' < k) :
    compare (a * k + b) (a' * k + b') = (compare a a').then (compare b b') := by
  rcases Nat.lt_trichotomy a a' with h | rfl | h
  · have hlt : a * k + b < a' * k + b' := by
      have := Nat.mul_le_mul_right k h
      rw [Nat.succ_mul] at this
      omega
    rw [compare_lt_iff_lt.2 hlt, compare_lt_iff_lt.2 h]
    rfl
  · rw [compare_eq_iff_eq.2 rfl, Ordering.eq_then, Nat.compare_eq_ite_lt, Nat.compare_eq_ite_lt]
    simp only [Nat.add_lt_add_iff_left]
  · have hgt : a' * k + b' < a * k + b := by
      have := Nat.mul_le_mul_right k h
      rw [Nat.succ_mul] at this
      omega
    rw [compare_gt_iff_gt.2 hgt, compare_gt_iff_gt.2 h]
    rfl

theorem compare_digitChar : ∀ a < 10, ∀ b < 10,
    compare a.digitChar b.digitChar = compare a b := by
  decide

theorem compare_lastDigits {width n m : Nat} (hn : n < 10 ^ width) (hm : m < 10 ^ width) :
    compare (lastDigits width n) (lastDigits width m) = compare n m := by
  induction width generalizing n m with
  | zero =>
      rw [Nat.pow_zero, Nat.lt_one_iff] at hn hm
      rw [hn, hm]
      rfl
  | succ width ih =>
      have hmod := Nat.mod_lt n (show 0 < 10 by decide)
      have hmod' := Nat.mod_lt m (show 0 < 10 by decide)
      rw [Nat.pow_succ'] at hn hm
      rw [lastDigits, lastDigits, compare_append (by rw [length_lastDigits, length_lastDigits]),
        ih (Nat.div_lt_of_lt_mul hn) (Nat.div_lt_of_lt_mul hm), List.compare_cons_cons,
        compare_digitChar _ hmod _ hmod', List.compare_nil_nil, Ordering.then_eq,
        ← compare_mul_add hmod hmod', Nat.div_add_mod', Nat.div_add_mod']

/-- Padded numbers are in the order of the numbers. -/
theorem compare_padded {width n m : Nat} (hn : n < 10 ^ (width + 1)) (hm : m < 10 ^ (width + 1)) :
    compare (padded (width + 1) n) (padded (width + 1) m) = compare n m := by
  rw [padded_eq_lastDigits hn, padded_eq_lastDigits hm, compare_lastDigits hn hm]

end TableQuery.Text
