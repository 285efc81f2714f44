import Mathlib.Data.List.Nodup
import Mathlib.Data.List.Perm.Subperm
import TableQuery.Proofs.Text.Digits
import TableQuery.Sheet.TableName

/-!
# The name that a table finds

A table tries the name of its sheet and then that name with the numbers from two on, until it has
one that is free. The numbered names differ even without regard to case, so the search ends before
it has tried one more name than there are taken ones. Whatever it ends with is made of letters,
digits and underscores, and is no reference to cells.
-/

namespace TableQuery.TableName

open TableQuery.Text

/-- Letters, digits and underscores, with no digit in front. -/
def IsName (s : List Char) : Prop :=
  startsWell s = true ∧ ∀ c ∈ s, isNameChar c = true

/-- The texts that stand for cells: one to three letters for the column and digits for the row, or
rows and columns by number, with the letter `R` or `C` in front of it. -/
inductive Refers : List Char → Prop
  | cell {letters digits : List Char} (some_letters : letters ≠ []) (few : letters.length ≤ 3)
      (are_letters : ∀ c ∈ letters, isAsciiLetter c = true) (some_digits : digits ≠ [])
      (are_digits : ∀ c ∈ digits, isAsciiDigit c = true) : Refers (letters ++ digits)
  | row {r : Char} {rows : List Char} (named : r = 'R' ∨ r = 'r')
      (are_digits : ∀ c ∈ rows, isAsciiDigit c = true) : Refers (r :: rows)
  | column {c : Char} {columns : List Char} (named : c = 'C' ∨ c = 'c')
      (are_digits : ∀ c ∈ columns, isAsciiDigit c = true) : Refers (c :: columns)
  | rowColumn {r c : Char} {rows columns : List Char} (row_named : r = 'R' ∨ r = 'r')
      (column_named : c = 'C' ∨ c = 'c')
      (are_digits : ∀ c ∈ rows ++ columns, isAsciiDigit c = true) :
      Refers (r :: (rows ++ c :: columns))

/-- The search for a free name, from a candidate and its number on. It has no bound of its own. -/
inductive Search (taken : List String) (name : List Char) : List Char → Nat → List Char → Prop
  | found {candidate : List Char} {n : Nat} (free : isTaken taken candidate = false) :
      Search taken name candidate n candidate
  | next {candidate result : List Char} {n : Nat} (used : isTaken taken candidate = true)
      (rest : Search taken name (numbered name (n + 1)) (n + 1) result) :
      Search taken name candidate n result

section References

theorem isAsciiLetter_of_isAsciiDigit {c : Char} (h : isAsciiDigit c = true) :
    isAsciiLetter c = false := by
  simp only [isAsciiDigit, Bool.and_eq_true, decide_eq_true_eq] at h
  simp only [isAsciiLetter, Bool.or_eq_false_iff, Bool.and_eq_false_iff, decide_eq_false_iff_not]
  omega

theorem underscore_not_mem {s : List Char} (h : ∀ c ∈ s, isAsciiDigit c = true) : '_' ∉ s :=
  fun hmem => absurd (h '_' hmem) (by decide)

theorem Refers.underscore_not_mem {s : List Char} (h : Refers s) : '_' ∉ s := by
  have hrow : ∀ {r : Char}, r = 'R' ∨ r = 'r' → '_' ≠ r := by
    rintro r (rfl | rfl) <;> decide
  have hcolumn : ∀ {c : Char}, c = 'C' ∨ c = 'c' → '_' ≠ c := by
    rintro c (rfl | rfl) <;> decide
  cases h with
  | cell _ _ hletters _ hdigits =>
      rw [List.mem_append, not_or]
      exact ⟨fun hmem => absurd (hletters '_' hmem) (by decide),
        TableName.underscore_not_mem hdigits⟩
  | row hr hrows =>
      exact List.not_mem_cons_of_ne_of_not_mem (hrow hr) (TableName.underscore_not_mem hrows)
  | column hc hcolumns =>
      exact List.not_mem_cons_of_ne_of_not_mem (hcolumn hc) (TableName.underscore_not_mem hcolumns)
  | rowColumn hr hc hdigits =>
      have hnone := TableName.underscore_not_mem hdigits
      rw [List.mem_append, not_or] at hnone
      simp [hrow hr, hcolumn hc, hnone]

theorem isCell_append {letters digits : List Char} (hne : letters ≠ []) (hfew : letters.length ≤ 3)
    (hletters : ∀ c ∈ letters, isAsciiLetter c = true) (hsome : digits ≠ [])
    (hdigits : ∀ c ∈ digits, isAsciiDigit c = true) : isCell (letters ++ digits) = true := by
  obtain ⟨d, rest, rfl⟩ := List.exists_cons_of_ne_nil hsome
  have hd := isAsciiLetter_of_isAsciiDigit (hdigits d List.mem_cons_self)
  have hlead : (letters ++ d :: rest).takeWhile isAsciiLetter = letters := by
    rw [List.takeWhile_append_of_pos hletters, List.takeWhile_cons_of_neg (by simp [hd]),
      List.append_nil]
  have htail : (letters ++ d :: rest).dropWhile isAsciiLetter = d :: rest := by
    rw [List.dropWhile_append_of_pos hletters, List.dropWhile_cons_of_neg (by simp [hd])]
  have hlength : 1 ≤ letters.length := List.length_pos_iff.2 hne
  have hall : (d :: rest).all isAsciiDigit = true := List.all_eq_true.2 hdigits
  simp only [isCell, hlead, htail, hlength, hfew, hall, decide_true, List.isEmpty_cons,
    Bool.not_false, Bool.and_self]

theorem isNumbered_row {r : Char} (hr : r = 'R' ∨ r = 'r') {rows rest : List Char}
    (hrows : ∀ c ∈ rows, isAsciiDigit c = true)
    (hrest : rest.dropWhile isAsciiDigit = rest) (hend : isColumnEnd rest = true) :
    isNumbered (r :: (rows ++ rest)) = true := by
  have hletter : isLetter 'R' r = true := by
    rcases hr with rfl | rfl <;> decide
  rw [isNumbered, List.dropWhile_append_of_pos hrows, hrest, hletter, hend]
  rfl

/-- The check knows every text that stands for cells. -/
theorem isReference_of_refers {s : List Char} (h : Refers s) : isReference s = true := by
  rw [isReference, Bool.or_eq_true]
  cases h with
  | cell hne hfew hletters hsome hdigits =>
      exact .inl (isCell_append hne hfew hletters hsome hdigits)
  | row hr hrows =>
      have hnone : ([] : List Char).dropWhile isAsciiDigit = [] := rfl
      have hnumbered := isNumbered_row hr hrows hnone rfl
      rw [List.append_nil] at hnumbered
      exact .inr hnumbered
  | @column c columns hc hcolumns =>
      have hletter : isLetter 'C' c = true := by
        rcases hc with rfl | rfl <;> decide
      rw [isNumbered, hletter, List.all_eq_true.2 hcolumns, Bool.and_self, Bool.or_true]
      exact .inr rfl
  | @rowColumn r c rows columns hr hc hdigits =>
      rw [List.forall_mem_append] at hdigits
      have hc' : isLetter 'C' c = true ∧ isAsciiDigit c = false := by
        rcases hc with rfl | rfl <;> decide
      refine .inr (isNumbered_row hr hdigits.1 ?_ ?_)
      · exact List.dropWhile_cons_of_neg (by simp [hc'.2])
      · rw [isColumnEnd, hc'.1, List.all_eq_true.2 hdigits.2]
        rfl

end References

section Names

theorem isNameChar_of_isAsciiDigit {c : Char} (h : isAsciiDigit c = true) :
    isNameChar c = true := by
  simp [isNameChar, h]

theorem isNameChar_of_mem_cleaned {s : List Char} : ∀ c ∈ cleaned s, isNameChar c = true := by
  intro c hc
  obtain ⟨d, -, rfl⟩ := List.mem_map.1 hc
  split_ifs with hd
  · exact hd
  · decide

theorem isAsciiDigit_of_mem_toDigits {n : Nat} {c : Char} (h : c ∈ Nat.toDigits 10 n) :
    isAsciiDigit c = true :=
  Nat.isDigit_of_mem_toDigits (by decide) (by decide) h

theorem isName_base (sheet : String) : IsName (base sheet) := by
  have hchars : ∀ c ∈ (if (cleaned sheet.toList).isEmpty then "Result".toList
      else cleaned sheet.toList), isNameChar c = true := by
    split_ifs
    · exact List.all_eq_true.1 (by decide)
    · exact isNameChar_of_mem_cleaned
  simp only [base]
  generalize (if (cleaned sheet.toList).isEmpty then "Result".toList
    else cleaned sheet.toList) = name at hchars ⊢
  split_ifs with h
  · refine ⟨rfl, ?_⟩
    simp only [List.forall_mem_cons]
    exact ⟨by decide, by decide, hchars⟩
  · rw [Bool.or_eq_true, not_or, Bool.not_eq_true', Bool.not_eq_false] at h
    exact ⟨h.1, hchars⟩

/-- A name that could be read as a reference has got an underscore in it. -/
theorem not_refers_base (sheet : String) : ¬Refers (base sheet) := by
  intro hrefers
  have hunderscore := hrefers.underscore_not_mem
  have hreference := isReference_of_refers hrefers
  simp only [base] at hunderscore hreference
  split_ifs at hunderscore hreference with h <;> simp_all

theorem isName_numbered {name : List Char} (h : IsName name) (n : Nat) :
    IsName (numbered name n) := by
  obtain ⟨hstart, hchars⟩ := h
  constructor
  · cases name with
    | nil => cases hstart
    | cons c s => exact hstart
  · rw [numbered, List.forall_mem_append, List.forall_mem_cons]
    exact ⟨hchars, by decide, fun c hc =>
      isNameChar_of_isAsciiDigit (isAsciiDigit_of_mem_toDigits hc)⟩

theorem not_refers_numbered (name : List Char) (n : Nat) : ¬Refers (numbered name n) :=
  fun hrefers => hrefers.underscore_not_mem (List.mem_append_right name List.mem_cons_self)

end Names

section Free

variable {taken : List String} {name : List Char}

theorem isTaken_iff : isTaken taken name = true ↔ fold (String.ofList name) ∈ taken.map fold := by
  simp [isTaken]

/-- Case folding leaves the number of a name alone. -/
theorem fold_numbered (name : List Char) (n : Nat) :
    fold (String.ofList (numbered name n)) =
      fold (String.ofList name) ++ '_' :: Nat.toDigits 10 n := by
  have hdigits : fold (String.ofList (Nat.toDigits 10 n)) = Nat.toDigits 10 n :=
    fold_ofList fun c hc => foldChar_of_isAsciiDigit c (isAsciiDigit_of_mem_toDigits hc)
  rw [fold, String.toList_ofList] at hdigits ⊢
  rw [numbered, List.flatMap_append, List.flatMap_cons, hdigits, fold, String.toList_ofList]
  rfl

theorem fold_numbered_injective (name : List Char) :
    Function.Injective fun n => fold (String.ofList (numbered name n)) := by
  intro m n h
  simp only [fold_numbered, List.append_cancel_left_eq, List.cons.injEq, true_and] at h
  have hvalue := congrArg (fun digits => Nat.ofDigitChars 10 digits 0) h
  simpa using hvalue

theorem fold_numbered_ne (name : List Char) (n : Nat) :
    fold (String.ofList (numbered name n)) ≠ fold (String.ofList name) := by
  rw [fold_numbered]
  simp

/-- A name and as many numbers as there are taken names cannot all be taken. -/
theorem exists_free (h : isTaken taken name = true) :
    ∃ n, 2 ≤ n ∧ n < 2 + taken.length ∧ isTaken taken (numbered name n) = false := by
  by_contra hnone
  simp only [not_exists, not_and, Bool.not_eq_false] at hnone
  have hnodup : (fold (String.ofList name) :: (List.range' 2 taken.length).map fun n =>
      fold (String.ofList (numbered name n))).Nodup := by
    refine List.nodup_cons.2 ⟨?_, List.Nodup.map (fold_numbered_injective name) List.nodup_range'⟩
    intro hmem
    obtain ⟨n, -, hn⟩ := List.mem_map.1 hmem
    exact fold_numbered_ne name n hn
  have hsubset : (fold (String.ofList name) :: (List.range' 2 taken.length).map fun n =>
      fold (String.ofList (numbered name n))) ⊆ taken.map fold := by
    rw [List.cons_subset]
    refine ⟨isTaken_iff.1 h, ?_⟩
    intro s hs
    obtain ⟨n, hn, rfl⟩ := List.mem_map.1 hs
    rw [List.mem_range'_1] at hn
    exact isTaken_iff.1 (hnone n hn.1 hn.2)
  have hlength := (hnodup.subperm hsubset).length_le
  rw [List.length_cons, List.length_map, List.length_map, List.length_range'] at hlength
  omega

theorem search_firstFree {fuel n : Nat}
    (h : ∃ k, n ≤ k ∧ k < n + fuel ∧ isTaken taken (numbered name k) = false) :
    Search taken name (numbered name n) n (firstFree taken name fuel n) := by
  induction fuel generalizing n with
  | zero =>
      obtain ⟨k, hle, hlt, -⟩ := h
      omega
  | succ fuel ih =>
      rw [firstFree]
      split_ifs with hn
      · refine .next hn (ih ?_)
        obtain ⟨k, hle, hlt, hfree⟩ := h
        have hne : k ≠ n := by
          rintro rfl
          exact absurd (hn.symm.trans hfree) (by decide)
        exact ⟨k, by omega, by omega, hfree⟩
      · exact .found (by simpa using hn)

/-- The search ends, with the name that is chosen. -/
theorem search_choose (taken : List String) (sheet : String) :
    Search taken (base sheet) (base sheet) 1 (choose taken sheet).toList := by
  simp only [choose, String.toList_ofList]
  split_ifs with h
  · exact .next h (search_firstFree (exists_free h))
  · exact .found (by simpa using h)

end Free

namespace Search

variable {taken : List String} {name candidate result : List Char} {n : Nat}

theorem free (h : Search taken name candidate n result) : isTaken taken result = false := by
  induction h with
  | found hfree => exact hfree
  | next _ _ ih => exact ih

theorem forall_of_numbered {p : List Char → Prop} (h : Search taken name candidate n result)
    (hcandidate : p candidate) (hnumbered : ∀ n, p (numbered name n)) : p result := by
  induction h with
  | found => exact hcandidate
  | @next _ _ n _ _ ih => exact ih (hnumbered (n + 1))

end Search

section Choose

variable (taken : List String) (sheet : String)

theorem sameFold_choose : ∀ other ∈ taken, sameFold other (choose taken sheet) = false := by
  have hfree := (search_choose taken sheet).free
  rw [isTaken, String.ofList_toList, List.any_eq_false] at hfree
  intro other hother
  simpa [sameFold] using hfree other hother

theorem isName_choose : IsName (choose taken sheet).toList :=
  (search_choose taken sheet).forall_of_numbered (isName_base sheet)
    (isName_numbered (isName_base sheet))

theorem not_refers_choose : ¬Refers (choose taken sheet).toList :=
  (search_choose taken sheet).forall_of_numbered (p := fun s => ¬Refers s) (not_refers_base sheet)
    (not_refers_numbered (base sheet))

end Choose

end TableQuery.TableName
