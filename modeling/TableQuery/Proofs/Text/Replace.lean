import Mathlib.Algebra.Group.Nat.Defs
import Mathlib.Data.List.Infix
import TableQuery.Text.Split

/-!
# Replaced texts

Replacing exchanges the occurrences of a piece, found from the left, and leaves what stands between
them. A part of a text in which no occurrence starts is passed over.
-/

namespace TableQuery.Text

variable {old new s w : List Char}

theorem replaceFrom_length_append (w s : List Char) :
    replaceFrom old new w.length (w ++ s) = replaceFrom old new 0 s := by
  induction w with
  | nil => rfl
  | cons c w ih => exact ih

theorem replaceFrom_append_self (hold : old ≠ []) (s : List Char) :
    replaceFrom old new 0 (old ++ s) = new ++ replaceFrom old new 0 s := by
  cases old with
  | nil => exact absurd rfl hold
  | cons c t =>
      have hstart : (c :: t).isPrefixOf (c :: (t ++ s)) = true :=
        List.isPrefixOf_iff_prefix.2 ⟨s, rfl⟩
      rw [List.cons_append, replaceFrom, hstart, List.isEmpty_cons]
      exact congrArg (new ++ ·) (replaceFrom_length_append t s)

theorem replaceFrom_self (hold : old ≠ []) : replaceFrom old new 0 old = new := by
  have hself : replaceFrom old new 0 (old ++ []) = new ++ replaceFrom old new 0 [] :=
    replaceFrom_append_self hold []
  rwa [replaceFrom, List.append_nil, List.append_nil] at hself

theorem replaceFrom_cons_of_ne_start {c : Char} (h : ¬old <+: c :: s) :
    replaceFrom old new 0 (c :: s) = c :: replaceFrom old new 0 s := by
  have hstart : old.isPrefixOf (c :: s) = false := by
    rwa [← Bool.not_eq_true, List.isPrefixOf_iff_prefix]
  rw [replaceFrom, hstart, Bool.and_false]
  rfl

/-- A part in which no occurrence starts, whatever follows it, stays as it is. -/
theorem replaceFrom_append (h : ∀ t, t ≠ [] → t <:+ w → ¬old <+: t ++ s) :
    replaceFrom old new 0 (w ++ s) = w ++ replaceFrom old new 0 s := by
  induction w with
  | nil => rfl
  | cons c w ih =>
      have hhead : ¬old <+: c :: (w ++ s) := h (c :: w) (List.cons_ne_nil c w) List.suffix_rfl
      rw [List.cons_append, replaceFrom_cons_of_ne_start hhead,
        ih fun t hne ht => h t hne (ht.trans (List.suffix_cons c w))]
      rfl

theorem replaceFrom_eq_self (h : ¬old <:+: s) : replaceFrom old new 0 s = s := by
  have hnone : ∀ t, t ≠ [] → t <:+ s → ¬old <+: t ++ [] := by
    intro t _ ht hpre
    rw [List.append_nil] at hpre
    exact h (hpre.isInfix.trans ht.isInfix)
  have hself : replaceFrom old new 0 (s ++ []) = s ++ replaceFrom old new 0 [] :=
    replaceFrom_append hnone
  rwa [List.append_nil, replaceFrom, List.append_nil] at hself

/-- A text, the text with every occurrence of a piece replaced, and the number of occurrences. -/
inductive Replaced (old new : List Char) : List Char → List Char → Nat → Prop
  | nil : Replaced old new [] [] 0
  | hit {s t : List Char} {n : Nat} :
      Replaced old new s t n → Replaced old new (old ++ s) (new ++ t) (n + 1)
  | skip {c : Char} {s t : List Char} {n : Nat} :
      ¬old <+: c :: s → Replaced old new s t n → Replaced old new (c :: s) (c :: t) n

theorem exists_replaced (hold : old ≠ []) (new s : List Char) :
    ∃ n, Replaced old new s (replaceFrom old new 0 s) n := by
  induction hlength : s.length using Nat.strong_induction_on generalizing s with
  | _ length ih =>
      by_cases hpre : old <+: s
      · obtain ⟨t, rfl⟩ := hpre
        have hshort : t.length < length := by
          rw [← hlength, List.length_append]
          exact Nat.lt_add_of_pos_left (List.length_pos_iff.2 hold)
        obtain ⟨n, hn⟩ := ih t.length hshort t rfl
        rw [replaceFrom_append_self hold]
        exact ⟨n + 1, .hit hn⟩
      · cases s with
        | nil => exact ⟨0, .nil⟩
        | cons c t =>
            obtain ⟨n, hn⟩ := ih t.length (hlength ▸ Nat.lt_succ_self _) t rfl
            rw [replaceFrom_cons_of_ne_start hpre]
            exact ⟨n, .skip hpre hn⟩

namespace Replaced

variable {t : List Char} {n : Nat}

/-- Every occurrence takes its characters away and brings those of the new piece. -/
theorem countP_add (h : Replaced old new s t n) (p : Char → Bool) :
    t.countP p + n * old.countP p = s.countP p + n * new.countP p := by
  induction h with
  | nil => simp
  | hit _ ih =>
      rw [List.countP_append, List.countP_append, Nat.succ_mul, Nat.succ_mul]
      omega
  | skip _ _ ih =>
      rw [List.countP_cons, List.countP_cons]
      omega

theorem pos_of_infix (h : Replaced old new s t n) (hold : old ≠ []) (hs : old <:+: s) : 0 < n := by
  induction h with
  | nil => exact absurd (List.eq_nil_of_infix_nil hs) hold
  | hit _ _ => exact Nat.succ_pos _
  | skip hpre _ ih => exact ih ((List.infix_cons_iff.1 hs).resolve_left hpre)

end Replaced

end TableQuery.Text
