import Mathlib.Data.List.TakeWhile
import TableQuery.Proofs.Binary64.Integer
import TableQuery.Proofs.Json.Length
import TableQuery.Proofs.Text.Blank
import TableQuery.Request.IntegerText

/-!
# Integers of documents

An integer that is read from a document is the number that its value denotes: the digits of a text
before the point, with the sign, while behind the point there are zeros. The decimal text of a
number is read as that number. These are the rules for a reader of texts, and `read` keeps them.
-/

namespace TableQuery.IntegerText

open TableQuery.Text

/-- The digits before the point. -/
def wholePart (s : List Char) : List Char :=
  (s.takeWhile (· != '.')).filter isAsciiDigit

/-- The digits behind the point. -/
def fractionPart (s : List Char) : List Char :=
  (s.dropWhile (· != '.')).filter isAsciiDigit

/-- The integer that a text denotes. -/
structure Denotes (s : List Char) (n : Int) : Prop where
  whole : n = if '-' ∈ s then -(digitsValue (wholePart s) : Int) else digitsValue (wholePart s)
  fraction : digitsValue (fractionPart s) = 0

/-- Texts that denote the same. -/
structure Alike (s t : List Char) : Prop where
  sign : '-' ∈ s ↔ '-' ∈ t
  whole : digitsValue (wholePart s) = digitsValue (wholePart t)
  fraction : digitsValue (fractionPart s) = digitsValue (fractionPart t)

namespace Alike

variable {s t u : List Char}

theorem refl (s : List Char) : Alike s s :=
  ⟨Iff.rfl, rfl, rfl⟩

theorem trans (h : Alike s t) (h' : Alike t u) : Alike s u :=
  ⟨h.sign.trans h'.sign, h.whole.trans h'.whole, h.fraction.trans h'.fraction⟩

theorem denotes (h : Alike s t) {n : Int} (ht : Denotes t n) : Denotes s n := by
  constructor
  · rw [ht.whole, h.whole]
    simp only [h.sign]
  · rw [h.fraction, ht.fraction]

end Alike

/-- The characters that a number depends on. -/
def isVoiced (c : Char) : Bool :=
  isAsciiDigit c || c == '.' || c == '-'

theorem isVoiced_of_isAsciiDigit {c : Char} (h : isAsciiDigit c = true) : isVoiced c = true := by
  rw [isVoiced, h]
  rfl

theorem isVoiced_of_isSpace {c : Char} (h : isSpace c = true) : isVoiced c = false := by
  have hblank : isBlank c = true := (Bool.and_eq_true_iff.1 h).1
  have hnot {d : Char} (hd : isBlank d = false) : c ≠ d := by
    rintro rfl
    rw [hblank] at hd
    cases hd
  rw [isVoiced, Bool.or_eq_false_iff, Bool.or_eq_false_iff, beq_eq_false_iff_ne,
    beq_eq_false_iff_ne]
  refine ⟨⟨?_, hnot (by decide)⟩, hnot (by decide)⟩
  by_contra hdigit
  exact hnot (isBlank_of_isAsciiDigit c (by simpa using hdigit)) rfl

section Voiced

variable {s t : List Char}

theorem wholePart_filter (s : List Char) : wholePart (s.filter isVoiced) = wholePart s := by
  induction s with
  | nil => rfl
  | cons c s ih =>
      rw [wholePart, wholePart] at *
      by_cases hpoint : c = '.'
      · subst hpoint
        rfl
      · by_cases hvoiced : isVoiced c = true
        · rw [List.filter_cons_of_pos hvoiced, List.takeWhile_cons_of_pos (by simpa),
            List.takeWhile_cons_of_pos (by simpa), List.filter_cons, List.filter_cons, ih]
        · have hdigit := mt isVoiced_of_isAsciiDigit hvoiced
          rw [List.filter_cons_of_neg hvoiced, ih, List.takeWhile_cons_of_pos (by simpa),
            List.filter_cons_of_neg hdigit]

theorem fractionPart_filter (s : List Char) :
    fractionPart (s.filter isVoiced) = fractionPart s := by
  induction s with
  | nil => rfl
  | cons c s ih =>
      rw [fractionPart, fractionPart] at *
      by_cases hpoint : c = '.'
      · subst hpoint
        have hvoiced : ∀ a, (isAsciiDigit a && isVoiced a) = isAsciiDigit a := fun a => by
          cases h : isAsciiDigit a with
          | false => rfl
          | true => exact isVoiced_of_isAsciiDigit h
        change (List.filter isVoiced s).filter isAsciiDigit = s.filter isAsciiDigit
        rw [List.filter_filter]
        simp only [hvoiced]
      · by_cases hvoiced : isVoiced c = true
        · rw [List.filter_cons_of_pos hvoiced, List.dropWhile_cons_of_pos (by simpa),
            List.dropWhile_cons_of_pos (by simpa), ih]
        · rw [List.filter_cons_of_neg hvoiced, ih, List.dropWhile_cons_of_pos (by simpa)]

theorem alike_filter (s : List Char) : Alike (s.filter isVoiced) s := by
  refine ⟨?_, by rw [wholePart_filter], by rw [fractionPart_filter]⟩
  rw [List.mem_filter, and_iff_left (by decide)]

/-- Only the voiced characters matter. -/
theorem alike_of_filter_eq (h : s.filter isVoiced = t.filter isVoiced) : Alike s t := by
  have hs := alike_filter s
  rw [h] at hs
  exact ⟨hs.sign.symm.trans (alike_filter t).sign, hs.whole.symm.trans (alike_filter t).whole,
    hs.fraction.symm.trans (alike_filter t).fraction⟩

theorem filter_isVoiced_eq_nil (h : ∀ c ∈ s, isVoiced c = false) : s.filter isVoiced = [] :=
  List.filter_eq_nil_iff.2 fun c hc => by simp [h c hc]

end Voiced

theorem alike_stripBy (s : List Char) : Alike s (stripBy isSpace s) := by
  have hsilent {t : List Char} (h : ∀ c ∈ t, isSpace c = true) : t.filter isVoiced = [] :=
    filter_isVoiced_eq_nil fun c hc => isVoiced_of_isSpace (h c hc)
  have hdrop (t : List Char) : (t.dropWhile isSpace).filter isVoiced = t.filter isVoiced := by
    conv_rhs => rw [← List.takeWhile_append_dropWhile (p := isSpace) (l := t), List.filter_append,
      hsilent fun c hc => List.all_eq_true.1 List.all_takeWhile c hc]
    rfl
  refine alike_of_filter_eq ?_
  rw [stripBy, List.filter_reverse, hdrop, List.filter_reverse, hdrop, List.reverse_reverse]

theorem forall_isAsciiDigit_wholePart (s : List Char) : ∀ c ∈ wholePart s, isAsciiDigit c = true :=
  fun _ hc => (List.mem_filter.1 hc).2

theorem alike_cons {c : Char} (h : c = '0' ∨ c = '_') (s : List Char) : Alike (c :: s) s := by
  rcases h with rfl | rfl
  · refine ⟨by simp, ?_, rfl⟩
    exact digitsValue_zeros_append (forall_isAsciiDigit_wholePart s) 1
  · exact alike_of_filter_eq rfl

/-- The character before is kept only in front of a point and at the end, where it is a zero. -/
theorem alike_dropZeros {last : Char} {s t : List Char} (hlast : last = '0' ∨ last = '_')
    (h : dropZeros last s = some t) : Alike (last :: s) t := by
  induction s generalizing last with
  | nil =>
      cases h
      exact .refl _
  | cons c s ih =>
      rw [dropZeros] at h
      split at h
      · next hc =>
          have hc : c = '0' ∨ c = '_' := by simpa using hc
          exact (alike_cons hlast _).trans (ih hc h)
      · split at h
        · cases h
          exact alike_cons hlast _
        · split at h <;> cases h
          exact .refl _

theorem alike_stripZeros {s t : List Char} (h : stripZeros s = some t) : Alike s t := by
  cases s with
  | nil => cases h
  | cons c s =>
      rw [stripZeros] at h
      split at h
      · next hc =>
          obtain rfl : c = '0' := by simpa using hc
          exact alike_dropZeros (.inl rfl) h
      · split at h <;> cases h
        exact .refl _

theorem Alike.minus {s t : List Char} (h : Alike s t) : Alike ('-' :: s) ('-' :: t) :=
  ⟨by simp, h.whole, h.fraction⟩

theorem alike_stripFront {s t : List Char} (h : stripFront s = some t) : Alike s t := by
  have hplus (s : List Char) : Alike ('+' :: s) s := alike_of_filter_eq rfl
  unfold stripFront at h
  split at h
  · exact (hplus _).trans (alike_stripZeros h)
  · obtain ⟨body, hbody, rfl⟩ := Option.map_eq_some_iff.1 h
    exact (alike_stripZeros hbody).minus
  · exact alike_stripZeros h

theorem alike_stripFraction (s : List Char) : Alike s (stripFraction s) := by
  unfold stripFraction
  split
  · exact .refl s
  · next point fraction hdrop =>
      split
      · next hzeros =>
          have hpoint : point = '.' := by
            have hnot := List.head?_dropWhile_not (· != '.') s
            rw [hdrop] at hnot
            simpa using hnot
          have hall : ∀ c ∈ fraction, c = '0' := by simpa using (Bool.and_eq_true_iff.1 hzeros).2
          obtain ⟨k, hk⟩ : ∃ k, fraction = List.replicate k '0' :=
            ⟨_, List.eq_replicate_of_mem hall⟩
          have hsplit := List.takeWhile_append_dropWhile (p := (· != '.')) (l := s)
          rw [hdrop, hpoint, hk] at hsplit
          constructor
          case sign =>
            conv_lhs => rw [← hsplit]
            simp [List.mem_replicate]
          case whole => rw [wholePart, wholePart, List.takeWhile_idem]
          case fraction =>
            have hnone : (s.takeWhile (· != '.')).dropWhile (· != '.') = [] :=
              List.dropWhile_eq_nil_iff.2 fun c hc => List.all_eq_true.1 List.all_takeWhile c hc
            have hzero : isAsciiDigit '0' = true := rfl
            rw [fractionPart, fractionPart, hnone, hdrop, hpoint, hk,
              List.filter_cons_of_neg (by decide), List.filter_replicate_of_pos hzero]
            exact digitsValue_zeros k
      · exact .refl s

theorem alike_stripUnderscores (s : List Char) : Alike s (stripUnderscores s) := by
  have hvoiced (c : Char) : (isVoiced c && (c != '_')) = isVoiced c := by
    by_cases hc : c = '_'
    · subst hc
      rfl
    · simp [hc]
  rw [stripUnderscores]
  split
  · exact .refl s
  · refine alike_of_filter_eq ?_
    rw [List.filter_filter]
    simp only [hvoiced]

/-- A clean text and its number: digits, possibly with a minus sign. -/
inductive IsClean : List Char → Int → Prop
  | plus {ds : List Char} (h : ∀ c ∈ ds, isAsciiDigit c = true) (hlength : ds.length ≤ maxLength) :
      IsClean ds (digitsValue ds)
  | minus {ds : List Char} (h : ∀ c ∈ ds, isAsciiDigit c = true) (hlength : ds.length ≤ maxLength) :
      IsClean ('-' :: ds) (-(digitsValue ds : Int))

namespace IsClean

variable {s : List Char} {n : Int}

theorem natAbs_lt (h : IsClean s n) : n.natAbs < 10 ^ maxLength := by
  have hlt {ds : List Char} (h : ∀ c ∈ ds, isAsciiDigit c = true)
      (hlength : ds.length ≤ maxLength) : digitsValue ds < 10 ^ maxLength :=
    (digitsValue_lt h).trans_le (Nat.pow_le_pow_right (by decide) hlength)
  cases h with
  | plus h hlength =>
      rw [Int.natAbs_natCast]
      exact hlt h hlength
  | minus h hlength =>
      rw [Int.natAbs_neg, Int.natAbs_natCast]
      exact hlt h hlength

theorem denotes (h : IsClean s n) : Denotes s n := by
  have hpoint {c : Char} (hc : isAsciiDigit c = true) : (c != '.') = true := by
    rw [bne_iff_ne]
    rintro rfl
    cases hc
  cases h with
  | plus h _ =>
      have hminus : '-' ∉ s := fun hmem => Bool.false_ne_true (h _ hmem)
      constructor
      · rw [if_neg hminus, wholePart, List.takeWhile_eq_self_iff.2 fun c hc => hpoint (h c hc),
          List.filter_eq_self.2 h]
      · rw [fractionPart, List.dropWhile_eq_nil_iff.2 fun c hc => hpoint (h c hc)]
        rfl
  | @minus ds h _ =>
      constructor
      · rw [if_pos List.mem_cons_self, wholePart, List.takeWhile_cons_of_pos (by decide),
          List.takeWhile_eq_self_iff.2 fun c hc => hpoint (h c hc),
          List.filter_cons_of_neg (by decide), List.filter_eq_self.2 h]
      · rw [fractionPart, List.dropWhile_cons_of_pos (by decide),
          List.dropWhile_eq_nil_iff.2 fun c hc => hpoint (h c hc)]
        rfl

end IsClean

theorem isClean_of_readClean {s : List Char} {n : Int} (h : readClean s = .ok n) : IsClean s n := by
  have hdigits {ds : List Char} (hds : (Json.wholeDigits ds == ds && !ds.isEmpty) = true) :
      ∀ c ∈ ds, isAsciiDigit c = true := by
    intro c hc
    rw [Bool.and_eq_true, beq_iff_eq] at hds
    exact Json.isAsciiDigit_of_mem_wholeDigits (hds.1.symm ▸ hc)
  have hlength {ds : List Char} {k : Nat} (hds : ∀ c ∈ ds, isAsciiDigit c = true)
      (h : ¬maxLength < (ds.takeWhile isAsciiDigit).length + k) : ds.length ≤ maxLength := by
    rw [List.takeWhile_eq_self_iff.2 hds] at h
    omega
  rw [readClean] at h
  by_cases hsign : ['-'].isPrefixOf s = true
  · obtain ⟨ds, rfl⟩ := List.isPrefixOf_iff_prefix.1 hsign
    rw [List.singleton_append] at *
    simp only [hsign, if_true, List.drop_succ_cons, List.drop_zero] at h
    split at h
    · cases h
    · next hlong =>
        split at h <;> cases h
        next hds => exact .minus (hdigits hds) (hlength (hdigits hds) hlong)
  · simp only [hsign, Bool.false_eq_true, if_false] at h
    split at h
    · cases h
    · next hlong =>
        split at h <;> cases h
        next hds => exact .plus (hdigits hds) (hlength (hdigits hds) hlong)

section Reading

variable {s : String} {n : Int}

theorem exists_isClean_of_read (h : read s = .ok n) : ∃ t, Alike s.toList t ∧ IsClean t n := by
  rw [read] at h
  split at h
  · cases h
  · next body hbody =>
      have halike := ((alike_stripBy s.toList).trans (alike_stripFront hbody)).trans
        ((alike_stripFraction body).trans (alike_stripUnderscores _))
      exact ⟨_, halike, isClean_of_readClean h⟩

/-- An integer text is read as the number that it denotes. -/
theorem denotes_of_read (h : read s = .ok n) : Denotes s.toList n := by
  obtain ⟨t, halike, hclean⟩ := exists_isClean_of_read h
  exact halike.denotes hclean.denotes

theorem natAbs_lt_of_read (h : read s = .ok n) : n.natAbs < 10 ^ maxLength := by
  obtain ⟨t, -, hclean⟩ := exists_isClean_of_read h
  exact hclean.natAbs_lt

end Reading

/-- The decimal text of a number does not start with a zero. -/
theorem head_toDigits {n : Nat} (h : 0 < n) : ∀ c ∈ (Nat.toDigits 10 n).head?, c ≠ '0' := by
  induction n using Nat.strongRecOn with
  | ind n ih =>
      rcases Nat.lt_or_ge n 10 with hn | hn
      · have hdigit : ∀ d < 10, 0 < d → d.digitChar ≠ '0' := by decide
        rw [Nat.toDigits_of_lt_base hn]
        rintro c ⟨⟩
        exact hdigit n hn h
      · rw [Nat.toDigits_of_base_le (by decide) hn,
          List.head?_append_of_ne_nil _ Nat.toDigits_ne_nil]
        exact ih (n / 10) (by omega) (by omega)

theorem wholeDigits_toDigits (n : Nat) :
    Json.wholeDigits (Nat.toDigits 10 n) = Nat.toDigits 10 n := by
  have htake : (Nat.toDigits 10 n).takeWhile isAsciiDigit = Nat.toDigits 10 n :=
    List.takeWhile_eq_self_iff.2 fun _ => isAsciiDigit_of_mem_toDigits
  rcases Nat.eq_zero_or_pos n with rfl | hn
  · rfl
  · have hhead := head_toDigits hn
    unfold Json.wholeDigits
    split
    · next heq =>
        rw [heq] at hhead
        exact absurd rfl (hhead '0' rfl)
    · exact htake

theorem stripZeros_toDigits (n : Nat) :
    stripZeros (Nat.toDigits 10 n) = some (Nat.toDigits 10 n) := by
  rcases Nat.eq_zero_or_pos n with rfl | hn
  · rfl
  · obtain ⟨c, s, hs⟩ := List.exists_cons_of_ne_nil (Nat.toDigits_ne_nil (n := n) (b := 10))
    have hhead := head_toDigits hn c (by rw [hs]; rfl)
    have hdigit : isAsciiDigit c = true :=
      isAsciiDigit_of_mem_toDigits (n := n) (hs ▸ List.mem_cons_self)
    rw [hs, stripZeros, if_neg (by simpa using hhead), hdigit]
    rfl

theorem stripFront_toDigits (n : Nat) :
    stripFront (Nat.toDigits 10 n) = some (Nat.toDigits 10 n) := by
  have hdigit {c : Char} {s : List Char} (h : Nat.toDigits 10 n = c :: s) : isAsciiDigit c = true :=
    isAsciiDigit_of_mem_toDigits (n := n) (h ▸ List.mem_cons_self)
  unfold stripFront
  split
  · next h => exact absurd (hdigit h) (by decide)
  · next h => exact absurd (hdigit h) (by decide)
  · exact stripZeros_toDigits n

theorem stripFraction_of_digits {s : List Char} (h : ∀ c ∈ s, isAsciiDigit c = true) :
    stripFraction s = s := by
  have hpoint : s.dropWhile (· != '.') = [] := List.dropWhile_eq_nil_iff.2 fun c hc => by
    rw [bne_iff_ne]
    rintro rfl
    exact absurd (h '.' hc) (by decide)
  rw [stripFraction, hpoint]

theorem stripUnderscores_of_digits {s : List Char} (h : ∀ c ∈ s, isAsciiDigit c = true) :
    stripUnderscores s = s := by
  have hfilter : s.filter (· != '_') = s := List.filter_eq_self.2 fun c hc => by
    rw [bne_iff_ne]
    rintro rfl
    exact absurd (h '_' hc) (by decide)
  rw [stripUnderscores, hfilter, ite_self]

theorem readClean_toDigits {n : Nat} (h : n < 10 ^ maxLength) :
    readClean (Nat.toDigits 10 n) = .ok (n : Int) := by
  have hlength : (Nat.toDigits 10 n).length ≤ maxLength :=
    (Nat.length_toDigits_le_iff (by decide) (by decide)).2 h
  have hrun : (Nat.toDigits 10 n).takeWhile isAsciiDigit = Nat.toDigits 10 n :=
    List.takeWhile_eq_self_iff.2 fun _ => isAsciiDigit_of_mem_toDigits
  have hsign : ['-'].isPrefixOf (Nat.toDigits 10 n) = false := by
    rw [Bool.eq_false_iff]
    intro hprefix
    obtain ⟨t, ht⟩ := List.isPrefixOf_iff_prefix.1 hprefix
    have hminus : '-' ∈ Nat.toDigits 10 n := ht ▸ List.mem_cons_self
    exact absurd (isAsciiDigit_of_mem_toDigits hminus) (by decide)
  have hempty : (Nat.toDigits 10 n).isEmpty = false := by
    rw [List.isEmpty_eq_false_iff]
    exact Nat.toDigits_ne_nil
  simp only [readClean, hsign, Bool.false_eq_true, if_false, hrun, Nat.add_zero,
    Nat.not_lt.2 hlength, wholeDigits_toDigits, hempty, digitsValue_toDigits]
  simp

/-- The decimal text of a number is read as the number. -/
theorem read_repr {n : Nat} (h : n < 10 ^ maxLength) : read n.repr = .ok (n : Int) := by
  have hdigits : ∀ c ∈ Nat.toDigits 10 n, isAsciiDigit c = true :=
    fun _ => isAsciiDigit_of_mem_toDigits
  have hspace : ∀ c ∈ Nat.toDigits 10 n, isSpace c = false := fun c hc => by
    rw [isSpace, isBlank_of_isAsciiDigit c (hdigits c hc)]
    rfl
  rw [read, Nat.toList_repr, stripBy_eq_self hspace, stripFront_toDigits]
  simp only [stripFraction_of_digits hdigits, stripUnderscores_of_digits hdigits,
    readClean_toDigits h]

/-- What a reader of integer texts keeps to: a text that is read is read as the number that it
denotes, which is not too long to be written, and the decimal text of a number is read. -/
structure Rules (readText : String → Checked Int) : Prop where
  denotes : ∀ s n, readText s = .ok n → Denotes s.toList n
  short : ∀ s n, readText s = .ok n → n.natAbs < 10 ^ maxLength
  decimal : ∀ n : Nat, n < 10 ^ maxLength → readText n.repr = .ok (n : Int)

theorem rules_read : Rules read :=
  ⟨fun _ _ => denotes_of_read, fun _ _ => natAbs_lt_of_read, fun _ => read_repr⟩

/-- The integer that a value denotes: for a truth value one or zero. -/
def Says : Json → Int → Prop
  | .bool b, n => n = b.toNat
  | .int m, n => n = m
  | .float x, n => x.isFinite = true ∧ x.value = n
  | .text s, n => Denotes s.toList n
  | _, _ => False

section Values

variable {readText : String → Checked Int} {j : Json} {n : Int}

theorem ofNumber_eq_ok {x : Binary64} (h : ofNumber x = .ok n) :
    x.isFinite = true ∧ x.toInt? = some n ∧ n.natAbs < twoPow 63 := by
  rw [ofNumber] at h
  split at h
  · cases h
  · next hfinite =>
      split at h
      · cases h
      · next hint =>
          split at h <;> cases h
          next hrange => exact ⟨by simpa using hfinite, hint, by omega⟩

/-- An integer that is read from a value is the number that the value denotes. -/
theorem says_of_ofJson (hrules : Rules readText) (h : ofJson readText j = .ok n) : Says j n := by
  cases j with
  | bool b =>
      cases h
      cases b <;> rfl
  | int m =>
      cases h
      rfl
  | float x =>
      obtain ⟨hfinite, hint, -⟩ := ofNumber_eq_ok h
      exact ⟨hfinite, Binary64.value_of_toInt? hint⟩
  | text s => exact hrules.denotes s n h
  | null | array | object => cases h

/-- From a document, no integer is read that is too long to be written as a text. -/
theorem natAbs_lt_of_ofJson (hrules : Rules readText) (hj : j.IsShort)
    (h : ofJson readText j = .ok n) : n.natAbs < 10 ^ maxLength := by
  have hlimit : Json.maxDigits = maxLength := rfl
  cases hj with
  | int hshort =>
      cases h
      rwa [hlimit] at hshort
  | bool b =>
      have hone : 1 < 10 ^ maxLength := Nat.one_lt_pow (by decide) (by decide)
      cases h
      cases b
      · exact Nat.zero_lt_of_lt hone
      · exact hone
  | float x =>
      have hbits : twoPow 63 ≤ 10 ^ 19 := by decide
      obtain ⟨-, -, hlt⟩ := ofNumber_eq_ok h
      exact hlt.trans_le (hbits.trans (Nat.pow_le_pow_right (by decide) (by decide)))
  | text s => exact hrules.short s n h
  | null | array | object => cases h

theorem countOfJson_eq_ok_iff {n : Nat} :
    countOfJson readText j = .ok n ↔ ofJson readText j = .ok (n : Int) := by
  rw [countOfJson]
  cases ofJson readText j with
  | error fs => simp
  | ok m =>
      dsimp only
      split
      · simp [Checked.refuse]
        omega
      · simp
        omega

end Values

end TableQuery.IntegerText
