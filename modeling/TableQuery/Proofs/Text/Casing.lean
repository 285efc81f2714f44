import Mathlib.Data.List.Chain
import TableQuery.Text.Casing

/-!
# Lower case and case folding

Case folding sees no difference between a text and its lower case, so texts with the same lower
case are the same without regard to case. The law is checked on the code points that lower case
moves, run by run, in the part of the folding tables that is near to them.
-/

namespace TableQuery.Text

theorem findSome?_dropWhile {α β : Type} {f : α → Option β} {p : α → Bool} {xs : List α}
    (h : ∀ x ∈ xs, p x = true → f x = none) : (xs.dropWhile p).findSome? f = xs.findSome? f := by
  induction xs with
  | nil => rfl
  | cons x xs ih =>
      rw [List.forall_mem_cons] at h
      rw [List.dropWhile_cons]
      split_ifs with hx
      · rw [ih h.2, List.findSome?_cons, h.1 hx]
      · rfl

theorem findSome?_takeWhile {α β : Type} {f : α → Option β} {p : α → Bool} {xs : List α}
    (hsorted : xs.Pairwise fun x y => p y = true → p x = true)
    (h : ∀ x ∈ xs, p x = false → f x = none) : (xs.takeWhile p).findSome? f = xs.findSome? f := by
  induction xs with
  | nil => rfl
  | cons x xs ih =>
      rw [List.pairwise_cons] at hsorted
      cases hx : p x with
      | true =>
          rw [List.takeWhile_cons_of_pos hx, List.findSome?_cons, List.findSome?_cons,
            ih hsorted.2 fun y hy => h y (List.mem_cons_of_mem x hy)]
      | false =>
          have hnone : ∀ y ∈ x :: xs, f y = none := by
            rw [List.forall_mem_cons]
            refine ⟨h x List.mem_cons_self hx, fun y hy => h y (List.mem_cons_of_mem x hy) ?_⟩
            by_contra hpy
            exact absurd (hsorted.1 y hy (by simpa using hpy)) (by simp [hx])
          rw [List.takeWhile_cons_of_neg (by simp [hx]), List.findSome?_nil,
            List.findSome?_eq_none_iff.2 hnone]

/-- The runs of a mapping that reach into a range of code points. -/
def nearRuns (low high : Nat) (runs : CaseRuns) : CaseRuns :=
  (runs.dropWhile fun run => Nat.blt run.2.1 low).takeWhile fun run => Nat.ble run.1 high

/-- The expansions of a mapping within a range of code points. -/
def nearExpansions (low high : Nat) (expansions : CaseExpansions) : CaseExpansions :=
  (expansions.dropWhile fun e => Nat.blt e.1 low).takeWhile fun e => Nat.ble e.1 high

/-- The entries of a mapping are in the order of their code points. -/
def Ascending {α : Type} (entries : List (Nat × α)) : Prop :=
  (entries.map Prod.fst).IsChain (· ≤ ·)

theorem Ascending.ble {α : Type} {entries : List (Nat × α)} (h : Ascending entries) (high : Nat) :
    entries.Pairwise fun e e' => Nat.ble e'.1 high = true → Nat.ble e.1 high = true := by
  refine (List.pairwise_map.1 (List.isChain_iff_pairwise.1 h)).imp fun hle he' => ?_
  rw [Nat.ble_eq] at he' ⊢
  exact hle.trans he'

section Near

variable {low high n : Nat} (hlow : low ≤ n) (hhigh : n ≤ high)
include hlow hhigh

theorem applyRuns_nearRuns {runs : CaseRuns} (hruns : Ascending runs) :
    applyRuns (nearRuns low high runs) n = applyRuns runs n := by
  rw [applyRuns, applyRuns, List.find?_eq_findSome?_guard, List.find?_eq_findSome?_guard, nearRuns,
    findSome?_takeWhile ((hruns.ble high).sublist (List.dropWhile_sublist _)), findSome?_dropWhile]
  · rintro ⟨first, last, step, shift⟩ - hrun
    have hlast : last < low := by simpa using hrun
    simp [Option.guard, show ¬n ≤ last by omega]
  · rintro ⟨first, last, step, shift⟩ - hrun
    have hfirst : high < first := by simpa [← Bool.not_eq_true] using hrun
    simp [Option.guard, show ¬first ≤ n by omega]

theorem lookup_nearExpansions {expansions : CaseExpansions} (h : Ascending expansions) :
    (nearExpansions low high expansions).lookup n = expansions.lookup n := by
  rw [List.lookup_eq_findSome?, List.lookup_eq_findSome?, nearExpansions,
    findSome?_takeWhile ((h.ble high).sublist (List.dropWhile_sublist _)), findSome?_dropWhile]
  · rintro ⟨m, image⟩ - he
    have hm : m < low := by simpa using he
    simp [show n ≠ m by omega]
  · rintro ⟨m, image⟩ - he
    have hm : high < m := by simpa [← Bool.not_eq_true] using he
    simp [show n ≠ m by omega]

end Near

theorem ascending_foldRuns : Ascending foldRuns := by
  unfold Ascending
  decide +kernel

theorem ascending_foldExpansions : Ascending foldExpansions := by
  unfold Ascending
  decide +kernel

/-- The code points of the image of a code point beyond ASCII. -/
def tableCodes (runs : CaseRuns) (expansions : CaseExpansions) (n : Nat) : List Nat :=
  match expansions.lookup n with
  | some ns => ns
  | none => [applyRuns runs n]

theorem applyTables_eq (runs : CaseRuns) (expansions : CaseExpansions) (c : Char) :
    applyTables runs expansions c = (tableCodes runs expansions c.toNat).map Char.ofNat := by
  rw [applyTables, tableCodes]
  cases expansions.lookup c.toNat <;> rfl

/-- The code points of the case folding of a code point, found near to it. -/
def foldNear (low high n : Nat) : List Nat :=
  if n < 128 then [(Char.ofNat n).toLower.toNat]
  else tableCodes (nearRuns low high foldRuns) (nearExpansions low high foldExpansions) n

theorem foldChar_eq_foldNear {low high : Nat} {c : Char} (hlow : low ≤ c.toNat)
    (hhigh : c.toNat ≤ high) : foldChar c = (foldNear low high c.toNat).map Char.ofNat := by
  rw [foldChar, foldNear]
  split
  · rw [Char.ofNat_toNat, List.map_singleton, Char.ofNat_toNat]
  · rw [applyTables_eq, tableCodes, tableCodes,
      lookup_nearExpansions hlow hhigh ascending_foldExpansions,
      applyRuns_nearRuns hlow hhigh ascending_foldRuns]

/-- The code points of a run. -/
def codePoints (first last step : Nat) : List Nat :=
  (List.range ((last - first) / step + 1)).map fun k => first + step * k

theorem mem_codePoints {first last step n : Nat} (hfirst : first ≤ n) (hlast : n ≤ last)
    (hstep : (n - first) % step = 0) : n ∈ codePoints first last step := by
  have hmul : step * ((n - first) / step) = n - first :=
    Nat.mul_div_cancel' (Nat.dvd_of_mod_eq_zero hstep)
  refine List.mem_map.2 ⟨(n - first) / step, List.mem_range.2 ?_, by omega⟩
  exact Nat.lt_succ_of_le (Nat.div_le_div_right (by omega))

/-- Folding what a run of lower case gives is folding the code points of the run. -/
def foldsAlike : Nat × Nat × Nat × Int → Bool
  | (first, last, step, shift) =>
    let low := ((first : Int) + shift).toNat
    let high := ((last : Int) + shift).toNat
    (codePoints first last step).all fun n =>
      let image := ((n : Int) + shift).toNat
      decide image.isValidChar && foldNear low high image == foldNear first last n

theorem foldsAlike_lowerRuns : lowerRuns.all foldsAlike = true := by
  decide +kernel

theorem toNat_ofNat {n : Nat} (hn : n.isValidChar) : (Char.ofNat n).toNat = n := by
  rw [Char.ofNat, dif_pos hn]
  rfl

theorem toNat_toLower_lt {c : Char} (hc : c.toNat < 128) : c.toLower.toNat < 128 := by
  have h : ∀ n < 128, (Char.ofNat n).toLower.toNat < 128 := by decide
  rw [← Char.ofNat_toNat c]
  exact h c.toNat hc

theorem toLower_toLower {c : Char} (hc : c.toNat < 128) : c.toLower.toLower = c.toLower := by
  have h : ∀ n < 128, (Char.ofNat n).toLower.toLower = (Char.ofNat n).toLower := by decide
  rw [← Char.ofNat_toNat c]
  exact h c.toNat hc

theorem foldChar_of_applyRuns_lowerRuns (c : Char) :
    foldChar (Char.ofNat (applyRuns lowerRuns c.toNat)) = foldChar c := by
  rw [applyRuns]
  split
  case h_2 => rw [Char.ofNat_toNat]
  case h_1 first last step shift hfind =>
    have hin := List.find?_some hfind
    obtain ⟨⟨hfirst, hlast⟩, hstep⟩ : (first ≤ c.toNat ∧ c.toNat ≤ last) ∧
        (c.toNat - first) % step = 0 := by simpa using hin
    have halike := List.all_eq_true.1 foldsAlike_lowerRuns _ (List.mem_of_find?_eq_some hfind)
    simp only [foldsAlike, List.all_eq_true, Bool.and_eq_true, decide_eq_true_eq,
      beq_iff_eq] at halike
    obtain ⟨hvalid, hfold⟩ := halike _ (mem_codePoints hfirst hlast hstep)
    have himage := toNat_ofNat hvalid
    have hlow : ((first : Int) + shift).toNat ≤ ((c.toNat : Int) + shift).toNat := by omega
    have hhigh : ((c.toNat : Int) + shift).toNat ≤ ((last : Int) + shift).toNat := by omega
    rw [← himage] at hlow hhigh
    rw [foldChar_eq_foldNear hfirst hlast, foldChar_eq_foldNear hlow hhigh, himage, hfold]

theorem flatMap_foldChar_lowerChar (c : Char) : (lowerChar c).flatMap foldChar = foldChar c := by
  rw [lowerChar]
  split_ifs with hc
  · rw [List.flatMap_singleton, foldChar, foldChar, if_pos (toNat_toLower_lt hc), if_pos hc,
      toLower_toLower hc]
  · rw [applyTables]
    split
    next ns hns =>
      obtain ⟨hc, rfl⟩ : c.toNat = 304 ∧ [105, 775] = ns := by
        rw [lowerExpansions, List.lookup_cons] at hns
        split at hns <;> simp_all
      have hdotted : c = Char.ofNat 304 := by rw [← hc, Char.ofNat_toNat]
      subst hdotted
      decide
    next => rw [List.flatMap_singleton, foldChar_of_applyRuns_lowerRuns]

theorem flatMap_foldChar_lowerFrom (before s : List Char) :
    (lowerFrom before s).flatMap foldChar = s.flatMap foldChar := by
  induction s generalizing before with
  | nil => rfl
  | cons c s ih =>
      rw [lowerFrom, List.flatMap_append, ih, List.flatMap_cons]
      congr 1
      by_cases hc : c.toNat = 931
      · -- either form of a small sigma folds like the capital
        have hsigma : c = Char.ofNat 931 := by rw [← hc, Char.ofNat_toNat]
        subst hsigma
        split_ifs <;> decide
      · rw [if_neg hc, flatMap_foldChar_lowerChar]

/-- Lower case is nothing to case folding. -/
theorem fold_lower (s : String) : fold (lower s) = fold s := by
  rw [fold, lower, String.toList_ofList, flatMap_foldChar_lowerFrom, fold]

theorem fold_eq_of_lower_eq {a b : String} (h : lower a = lower b) : fold a = fold b := by
  rw [← fold_lower a, h, fold_lower]

end TableQuery.Text
