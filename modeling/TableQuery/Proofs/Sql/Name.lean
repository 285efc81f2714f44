import TableQuery.Proofs.Sql.Reading
import TableQuery.Proofs.Text.Blank
import TableQuery.Text.Casing

/-!
# Names of one part

A name of letters, digits and underscores is an identifier of one part, and reads as itself. Two
such names match without regard to case when they agree in lower case.
-/

namespace TableQuery.Sql

open TableQuery.Text

/-- A name of letters, digits and underscores that starts with no digit. -/
def isName (s : String) : Bool :=
  match s.toList with
  | [] => false
  | c :: rest => isPartHead c && rest.all isPartTail

theorem isPartTail_of_isPartHead {c : Char} (h : isPartHead c = true) : isPartTail c = true := by
  rw [isPartHead, Bool.or_eq_true] at h
  rcases h with h | h <;> simp [isPartTail, h]

theorem isPartTail_of_mem {s : String} (h : isName s = true) : ∀ c ∈ s.toList, isPartTail c = true := by
  rw [isName] at h
  cases hs : s.toList with
  | nil => simp
  | cons c rest =>
      rw [hs, Bool.and_eq_true, List.all_eq_true] at h
      intro d hd
      rcases List.mem_cons.1 hd with rfl | hd
      · exact isPartTail_of_isPartHead h.1
      · exact h.2 d hd

theorem isPartRest_of_all {s : List Char} (h : ∀ c ∈ s, isPartTail c = true) :
    isPartRest s = true := by
  induction s with
  | nil => rfl
  | cons c s ih =>
      have hc := h c List.mem_cons_self
      have hs := ih fun d hd => h d (List.mem_cons_of_mem c hd)
      rw [isPartRest.eq_def]
      split
      · rfl
      · rfl
      · next heq =>
        cases heq
        rw [hc, hs]
        rfl

theorem isPart_of_isName {s : String} (h : isName s = true) : isPart s.toList = true := by
  have htail := isPartTail_of_mem h
  rw [isName] at h
  cases hs : s.toList with
  | nil =>
      rw [hs] at h
      cases h
  | cons c rest =>
      rw [hs, Bool.and_eq_true] at h
      rw [hs] at htail
      rw [isPart, h.1, isPartRest_of_all fun d hd => htail d (List.mem_cons_of_mem c hd)]
      rfl

theorem not_isBlank_of_isPartTail {c : Char} (h : isPartTail c = true) : isBlank c = false := by
  rw [Bool.eq_false_iff]
  intro hblank
  simp only [isBlank, Bool.or_eq_true, Bool.and_eq_true, decide_eq_true_iff, beq_iff_eq] at hblank
  simp only [isPartTail, isAsciiLetter, isAsciiDigit, Bool.or_eq_true, Bool.and_eq_true,
    decide_eq_true_iff, beq_iff_eq] at h
  rcases h with (h | h) | rfl
  · omega
  · omega
  · exact absurd hblank (by decide)

/-- A name is the identifier whose only part it is. -/
def Identifier.ofName (s : String) (h : isName s = true) : Identifier where
  parts := [s.toList]
  nonempty := by simp
  areParts := by simp [isPart_of_isName h]

theorem Identifier.read_of_isName {s : String} (h : isName s = true) (field : String) :
    Identifier.read field s = .ok (ofName s h) := by
  have htail := isPartTail_of_mem h
  have htrim : trimChars s = s.toList :=
    stripBy_eq_self fun c hc => not_isBlank_of_isPartTail (htail c hc)
  have hdot : '.' ∉ s.toList := fun hmem => absurd (htail _ hmem) (by decide)
  have hcut : cut '.' (trimChars s) = [s.toList] := by
    rw [htrim, cut_eq_singleton hdot]
  have hall : (cut '.' (trimChars s)).all isPart = true := by
    rw [hcut]
    simp [isPart_of_isName h]
  rw [Identifier.read_eq_ok_iff, parse?, dif_pos hall, Option.some.injEq, ofName,
    Identifier.mk.injEq]
  exact hcut

theorem lt_of_isPartTail {c : Char} (h : isPartTail c = true) : c.toNat < 128 := by
  simp only [isPartTail, isAsciiLetter, isAsciiDigit, Bool.or_eq_true, Bool.and_eq_true,
    decide_eq_true_iff, beq_iff_eq] at h
  rcases h with (h | h) | rfl
  · omega
  · omega
  · decide

theorem fold_of_isName {s : String} (h : isName s = true) : fold s = s.toList.map Char.toLower := by
  have hchar : ∀ c ∈ s.toList, foldChar c = [c.toLower] := fun c hc =>
    if_pos (lt_of_isPartTail (isPartTail_of_mem h c hc))
  rw [fold, List.flatMap_congr hchar, ← List.map_eq_flatMap]

theorem sameFold_iff_of_isName {a b : String} (ha : isName a = true) (hb : isName b = true) :
    sameFold a b = true ↔ lowerAscii a = lowerAscii b := by
  rw [sameFold_iff, fold_of_isName ha, fold_of_isName hb, lowerAscii, lowerAscii,
    String.ofList_inj]

theorem isBlankText_of_isName {s : String} (h : isName s = true) : isBlankText s = false := by
  have htail := isPartTail_of_mem h
  rw [isName] at h
  rw [isBlankText]
  cases hs : s.toList with
  | nil =>
      rw [hs] at h
      cases h
  | cons c rest =>
      rw [hs] at htail
      rw [List.all_cons, not_isBlank_of_isPartTail (htail c List.mem_cons_self), Bool.false_and]

end TableQuery.Sql
