import TableQuery.Proofs.Binary64.Grammar
import TableQuery.Proofs.Text.Digits

/-!
# Texts of numbers

A numeral is a text of digits, with a point among them or not, and an exponent behind them or not.
With or without a sign it is read as the decimal that it spells.
-/

namespace TableQuery.Binary64

open TableQuery.Text

/-- All characters are digits, and there is one. -/
structure IsDigits (s : List Char) : Prop where
  ne_nil : s ≠ []
  digits : ∀ c ∈ s, isAsciiDigit c = true

/-- What stands behind the digits of a numeral: an exponent or nothing. -/
inductive Tail : List Char → Int → Prop
  | none : Tail [] 0
  | exponent {mark : Char} {s : List Char} (hmark : mark = 'e' ∨ mark = 'E') (hs : IsDigits s)
      (negative : Bool) : Tail (mark :: (if negative then '-' else '+') :: s)
        (if negative then -(digitsValue s : Int) else digitsValue s)

/-- The text is the decimal `digits * 10 ^ exponent` written out, without a sign. -/
inductive Spells : List Char → Nat → Int → Prop
  | whole {whole tail : List Char} {e : Int} (hwhole : IsDigits whole) (htail : Tail tail e) :
      Spells (whole ++ tail) (digitsValue whole) e
  | point {whole fraction tail : List Char} {e : Int} (hwhole : IsDigits whole)
      (hfraction : ∀ c ∈ fraction, isAsciiDigit c = true) (htail : Tail tail e) :
      Spells (whole ++ '.' :: (fraction ++ tail)) (digitsValue (whole ++ fraction))
        (e - fraction.length)

theorem isDigits_toDigits (n : Nat) : IsDigits (Nat.toDigits 10 n) :=
  ⟨Nat.toDigits_ne_nil, fun _ => isAsciiDigit_of_mem_toDigits⟩

theorem isDigits_padded (width n : Nat) : IsDigits (padded width n) :=
  ⟨List.append_ne_nil_of_right_ne_nil _ Nat.toDigits_ne_nil, fun _ => isAsciiDigit_of_mem_padded⟩

section Reading

variable {s tail : List Char} {n : Nat} {e : Int}

theorem forall_isDigit (h : ∀ c ∈ s, isAsciiDigit c = true) : ∀ c ∈ s, isDigit c = true :=
  fun c hc => isDigit_of_isAsciiDigit c (h c hc)

/-- Digits that are followed by neither a point nor an exponent are no number. -/
theorem isDecimal_append_cons {c : Char} (hs : ∀ c ∈ s, isAsciiDigit c = true)
    (hsign : s = [] → c ≠ '+' ∧ c ≠ '-') (hdigit : isDigit c = false)
    (hc : c ∉ ['.', 'e', 'E']) (rest : List Char) : isDecimal (s ++ c :: rest) = false := by
  have hhead : ∀ d ∈ (s ++ c :: rest).head?, d ≠ '+' ∧ d ≠ '-' := by
    cases s with
    | nil =>
        rintro _ ⟨⟩
        exact hsign rfl
    | cons d s =>
        rintro _ ⟨⟩
        exact ne_sign_of_isDigit (isDigit_of_isAsciiDigit d (hs d List.mem_cons_self))
  have hsplit : splitSign (s ++ c :: rest) = (false, s ++ c :: rest) := splitSign_append .none hhead
  have hneg : ¬isDigit c = true := by simp [hdigit]
  have htail : tailExponent? (c :: rest) = none := by
    have hmark : (c == 'e' || c == 'E') = false := by
      rw [Bool.or_eq_false_iff, beq_eq_false_iff_ne, beq_eq_false_iff_ne]
      exact ⟨fun h => hc (by simp [h]), fun h => hc (by simp [h])⟩
    rw [tailExponent?, hmark]
    rfl
  rw [isDecimal, hsplit, decimalParts?, List.dropWhile_append_of_pos (forall_isDigit hs),
    List.takeWhile_append_of_pos (forall_isDigit hs), List.dropWhile_cons_of_neg hneg]
  dsimp only
  split
  · next heq => exact absurd (List.cons.inj heq).1 fun h => hc (by simp [h])
  · rw [htail]
    split_ifs <;> rfl

theorem IsDigits.isRun (h : IsDigits s) : IsRun s :=
  ⟨h.ne_nil, forall_isDigit h.digits⟩

theorem Tail.isExponent (h : Tail tail e) : IsExponent tail e := by
  cases h with
  | none => exact .none
  | exponent hmark hs negative =>
      cases negative with
      | false => exact .marked hmark .plus hs.isRun
      | true => exact .marked hmark .minus hs.isRun

/-- A numeral is a plain number. -/
theorem Spells.exists_isPlain (h : Spells s n e) : ∃ whole fraction x,
    IsPlain s whole fraction x ∧ digitsValue (whole ++ fraction) = n ∧ x - fraction.length = e := by
  cases h with
  | @whole whole tail e hwhole htail =>
      exact ⟨whole, [], e, .whole hwhole.isRun htail.isExponent, by rw [List.append_nil], by simp⟩
  | point hwhole hfraction htail =>
      exact ⟨_, _, _, .point hwhole.isRun (forall_isDigit hfraction) htail.isExponent, rfl, rfl⟩

/-- Numerals have no other characters than these. -/
def isNumeralChar (c : Char) : Bool :=
  isAsciiDigit c || ['.', 'e', 'E', '+', '-'].contains c

theorem isNumeralChar_of_isAsciiDigit {c : Char} (h : isAsciiDigit c = true) :
    isNumeralChar c = true := by
  rw [isNumeralChar, h, Bool.true_or]

theorem isBlank_of_isNumeralChar {c : Char} (h : isNumeralChar c = true) : isBlank c = false := by
  rw [isNumeralChar, Bool.or_eq_true] at h
  rcases h with h | h
  · exact forall_of_isAsciiDigit (P := fun c => isBlank c = false) (by decide) c h
  · have hmarks : ['.', 'e', 'E', '+', '-'].all (fun c => !isBlank c) = true := by decide
    simpa using List.all_eq_true.1 hmarks c (List.contains_iff_mem.1 h)

theorem Tail.isNumeralChar (h : Tail tail e) : ∀ c ∈ tail, isNumeralChar c = true := by
  cases h with
  | none => simp
  | exponent hmark hs negative =>
      rw [List.forall_mem_cons, List.forall_mem_cons]
      refine ⟨?_, ?_, fun c hc => isNumeralChar_of_isAsciiDigit (hs.digits c hc)⟩
      · rcases hmark with rfl | rfl <;> decide
      · cases negative <;> decide

theorem Spells.isNumeralChar (h : Spells s n e) : ∀ c ∈ s, isNumeralChar c = true := by
  cases h with
  | whole hwhole htail =>
      rw [List.forall_mem_append]
      exact ⟨fun c hc => isNumeralChar_of_isAsciiDigit (hwhole.digits c hc), htail.isNumeralChar⟩
  | point hwhole hfraction htail =>
      rw [List.forall_mem_append, List.forall_mem_cons, List.forall_mem_append]
      exact ⟨fun c hc => isNumeralChar_of_isAsciiDigit (hwhole.digits c hc), by decide,
        fun c hc => isNumeralChar_of_isAsciiDigit (hfraction c hc), htail.isNumeralChar⟩

end Reading

section Signs

theorem isSign_signText (negative : Bool) : IsSign (signText negative) negative := by
  cases negative with
  | false => exact .none
  | true => exact .minus

variable {s : List Char} {n : Nat} {e : Int} (h : Spells s n e) (negative : Bool)
include h

theorem isNumeralChar_signText : ∀ c ∈ signText negative ++ s, isNumeralChar c = true := by
  rw [List.forall_mem_append]
  refine ⟨List.all_eq_true.1 ?_, h.isNumeralChar⟩
  cases negative <;> rfl

theorem trimChars_signText :
    trimChars (String.ofList (signText negative ++ s)) = signText negative ++ s := by
  rw [trimChars, String.toList_ofList]
  exact stripBy_eq_self fun c hc =>
    isBlank_of_isNumeralChar (isNumeralChar_signText h negative c hc)

theorem isNumber_signText : IsNumber (signText negative ++ s) negative n e := by
  obtain ⟨whole, fraction, x, hplain, rfl, rfl⟩ := h.exists_isPlain
  exact .mk (isSign_signText negative) (.plain hplain)

/-- A numeral with its sign is read as the double nearest to what it spells. -/
theorem number?_signText (hfinite : (ofDecimal negative n e).isFinite = true) :
    number? (String.ofList (signText negative ++ s)) = some (ofDecimal negative n e) := by
  have hnumber := isNumber_signText h negative
  rw [← trimChars_signText h negative] at hnumber
  exact number?_eq_some_iff.2 ⟨negative, n, e, hnumber, rfl, hfinite⟩

end Signs

end TableQuery.Binary64
