import TableQuery.Text.Split

/-!
# Texts that are cut

Cutting a text at a separator gives back what stood between separators, and the first cut is the
one with no separator before it.
-/

namespace TableQuery.Text

theorem cut_cons_self (sep : Char) (s : List Char) : cut sep (sep :: s) = [] :: cut sep s := by
  rw [cut, if_pos rfl]

theorem cut_cons_of_ne {sep c : Char} (h : c ≠ sep) (s : List Char) :
    cut sep (c :: s) = (cut sep s).modifyHead (c :: ·) := by
  rw [cut, if_neg h]
  cases hs : cut sep s with
  | nil => exact absurd hs (cut_ne_nil sep s)
  | cons piece rest => rfl

theorem cut_append {sep : Char} {w : List Char} (h : sep ∉ w) (s : List Char) :
    cut sep (w ++ s) = (cut sep s).modifyHead (w ++ ·) := by
  induction w with
  | nil =>
      rw [List.nil_append]
      cases cut sep s <;> rfl
  | cons c w ih =>
      have hc : c ≠ sep := fun heq => h (by simp [heq])
      rw [List.cons_append, cut_cons_of_ne hc, ih fun hw => h (List.mem_cons_of_mem c hw)]
      cases cut sep s <;> rfl

theorem cut_append_cons {sep : Char} {w : List Char} (h : sep ∉ w) (s : List Char) :
    cut sep (w ++ sep :: s) = w :: cut sep s := by
  rw [cut_append h, cut_cons_self]
  simp

theorem mem_cut_or_eq {sep : Char} {s : List Char} {c : Char} (h : c ∈ s) :
    c = sep ∨ ∃ piece ∈ cut sep s, c ∈ piece := by
  induction s with
  | nil => exact absurd h List.not_mem_nil
  | cons d s ih =>
      by_cases hd : d = sep
      · subst hd
        rw [cut_cons_self]
        rcases List.mem_cons.1 h with rfl | h
        · exact .inl rfl
        · exact (ih h).imp_right fun ⟨piece, hpiece, hc⟩ =>
            ⟨piece, List.mem_cons_of_mem [] hpiece, hc⟩
      · rw [cut_cons_of_ne hd]
        obtain ⟨first, rest, hcut⟩ := List.exists_cons_of_ne_nil (cut_ne_nil sep s)
        rw [hcut] at ih ⊢
        rw [List.modifyHead_cons]
        rcases List.mem_cons.1 h with rfl | h
        · exact .inr ⟨c :: first, List.mem_cons_self, List.mem_cons_self⟩
        · refine (ih h).imp_right fun ⟨piece, hpiece, hc⟩ => ?_
          rcases List.mem_cons.1 hpiece with rfl | hpiece
          · exact ⟨d :: piece, List.mem_cons_self, List.mem_cons_of_mem d hc⟩
          · exact ⟨piece, List.mem_cons_of_mem _ hpiece, hc⟩

theorem mem_of_mem_cut {sep : Char} {s piece : List Char} {c : Char} (hpiece : piece ∈ cut sep s)
    (hc : c ∈ piece) : c ∈ s := by
  induction s generalizing piece with
  | nil =>
      rw [cut_nil, List.mem_singleton] at hpiece
      exact hpiece ▸ hc
  | cons d s ih =>
      by_cases hd : d = sep
      · subst hd
        rw [cut_cons_self] at hpiece
        rcases List.mem_cons.1 hpiece with rfl | hpiece
        · exact absurd hc List.not_mem_nil
        · exact List.mem_cons_of_mem d (ih hpiece hc)
      · rw [cut_cons_of_ne hd] at hpiece
        obtain ⟨first, rest, hcut⟩ := List.exists_cons_of_ne_nil (cut_ne_nil sep s)
        rw [hcut] at ih hpiece
        rw [List.modifyHead_cons] at hpiece
        rcases List.mem_cons.1 hpiece with rfl | hpiece
        · rcases List.mem_cons.1 hc with rfl | hc
          · exact List.mem_cons_self
          · exact List.mem_cons_of_mem d (ih List.mem_cons_self hc)
        · exact List.mem_cons_of_mem d (ih (List.mem_cons_of_mem first hpiece) hc)

theorem intercalate_cut (sep : Char) (s : List Char) :
    List.intercalate [sep] (cut sep s) = s := by
  induction s with
  | nil => rfl
  | cons c s ih =>
      obtain ⟨first, rest, hcut⟩ := List.exists_cons_of_ne_nil (cut_ne_nil sep s)
      rw [hcut] at ih
      by_cases hc : c = sep
      · rw [hc, cut_cons_self, hcut, List.intercalate_cons_cons, ih]
        rfl
      · rw [cut_cons_of_ne hc, hcut, List.modifyHead_cons, ← ih]
        cases rest with
        | nil => simp
        | cons next rest =>
            rw [List.intercalate_cons_cons, List.intercalate_cons_cons]
            rfl

theorem cut_eq_singleton {sep : Char} {s : List Char} (h : sep ∉ s) : cut sep s = [s] := by
  have happend := cut_append h []
  rw [List.append_nil, cut_nil, List.modifyHead_cons, List.append_nil] at happend
  exact happend

theorem cutFirst_eq_some_iff {sep : Char} {s before after : List Char} :
    cutFirst sep s = (before, some after) ↔ s = before ++ sep :: after ∧ sep ∉ before := by
  induction s generalizing before with
  | nil => simp [cutFirst]
  | cons c s ih =>
      rw [cutFirst]
      by_cases hc : c = sep
      · subst hc
        rw [if_pos rfl]
        constructor
        · intro h
          cases h
          exact ⟨rfl, by simp⟩
        · rintro ⟨h, hbefore⟩
          cases before with
          | nil =>
              cases h
              rfl
          | cons d before =>
              rw [List.cons_append, List.cons.injEq] at h
              exact absurd (h.1 ▸ List.mem_cons_self) hbefore
      · rw [if_neg hc]
        constructor
        · intro h
          rw [Prod.mk.injEq] at h
          obtain ⟨rfl, hafter⟩ := h
          obtain ⟨hs, hbefore⟩ := ih.1 (Prod.ext rfl hafter)
          refine ⟨by rw [List.cons_append, ← hs], ?_⟩
          rw [List.mem_cons, not_or]
          exact ⟨fun heq => hc heq.symm, hbefore⟩
        · rintro ⟨h, hbefore⟩
          cases before with
          | nil =>
              rw [List.nil_append, List.cons.injEq] at h
              exact absurd h.1 hc
          | cons d before =>
              rw [List.cons_append, List.cons.injEq] at h
              obtain ⟨rfl, hs⟩ := h
              rw [ih.2 ⟨hs, fun hmem => hbefore (List.mem_cons_of_mem c hmem)⟩]

theorem cutFirst_snd_eq_none_iff {sep : Char} {s : List Char} :
    (cutFirst sep s).2 = none ↔ sep ∉ s := by
  induction s with
  | nil => simp [cutFirst]
  | cons c s ih =>
      rw [cutFirst, List.mem_cons, not_or]
      by_cases hc : c = sep
      · simp [hc]
      · rw [if_neg hc, ih]
        exact (and_iff_right fun heq => hc heq.symm).symm

end TableQuery.Text
