import TableQuery.Text.Blank
import TableQuery.Text.Digit

/-!
# Letters, digits and white space

The three classes share no character, the digits of every script included, and only a letter is a
letter in lower case.
-/

namespace TableQuery.Text

theorem forall_of_isAsciiLetter {P : Char → Prop}
    (h : ∀ n < 123, isAsciiLetter (Char.ofNat n) = true → P (Char.ofNat n)) (c : Char)
    (hc : isAsciiLetter c = true) : P c := by
  have hP := h c.toNat
  rw [Char.ofNat_toNat] at hP
  refine hP ?_ hc
  rw [isAsciiLetter] at hc
  simp only [Bool.or_eq_true, Bool.and_eq_true, decide_eq_true_eq] at hc
  omega

theorem isDigit_of_isAsciiLetter : ∀ c, isAsciiLetter c = true → isDigit c = false :=
  forall_of_isAsciiLetter (by decide)

theorem isBlank_of_isAsciiLetter : ∀ c, isAsciiLetter c = true → isBlank c = false :=
  forall_of_isAsciiLetter (by decide)

theorem isAsciiLetter_of_toLower {c : Char} (h : isAsciiLetter c.toLower = true) :
    isAsciiLetter c = true := by
  by_cases hupper : 'A'.val ≤ c.val ∧ c.val ≤ 'Z'.val
  · rw [isAsciiLetter, Bool.or_eq_true, Bool.and_eq_true, decide_eq_true_eq, decide_eq_true_eq]
    exact .inl hupper
  · have hsame : c.toLower = c := dif_neg hupper
    rwa [hsame] at h

/-- The code points of white space. -/
def blankPoints : List Nat :=
  [9, 10, 11, 12, 13, 28, 29, 30, 31, 32, 133, 160, 5760, 8192, 8193, 8194, 8195, 8196, 8197, 8198,
    8199, 8200, 8201, 8202, 8232, 8233, 8239, 8287, 12288]

theorem toNat_mem_blankPoints {c : Char} (h : isBlank c = true) : c.toNat ∈ blankPoints := by
  simp only [isBlank, Bool.or_eq_true, Bool.and_eq_true, decide_eq_true_eq, beq_iff_eq] at h
  simp only [blankPoints, List.mem_cons, List.not_mem_nil, or_false]
  omega

theorem isDigit_of_isBlank {c : Char} (h : isBlank c = true) : isDigit c = false := by
  have hpoints : ∀ n ∈ blankPoints, isDigit (Char.ofNat n) = false := by decide
  have hc := hpoints _ (toNat_mem_blankPoints h)
  rwa [Char.ofNat_toNat] at hc

end TableQuery.Text
