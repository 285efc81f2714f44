import Mathlib.Data.List.DropRight
import TableQuery.Text.Blank

/-!
# Trimmed texts and words

Trimming takes away what stands around a text that neither starts nor ends with a character of the
class. Words without white space and one blank between them are cut apart again.
-/

namespace TableQuery.Text

variable {p : Char → Bool} {s : List Char}

theorem stripBy_eq_nil_iff (p : Char → Bool) (s : List Char) :
    stripBy p s = [] ↔ ∀ c ∈ s, p c = true := by
  have hsplit := List.takeWhile_append_dropWhile (p := p) (l := s)
  simp only [stripBy, List.reverse_eq_nil_iff, List.dropWhile_eq_nil_iff, List.mem_reverse]
  constructor
  · intro h c hc
    rw [← hsplit] at hc
    rcases List.mem_append.1 hc with hc | hc
    · exact List.all_eq_true.1 List.all_takeWhile c hc
    · exact h c hc
  · intro h c hc
    exact h c (hsplit ▸ List.mem_append_right _ hc)

theorem dropWhile_append_of_head {front : List Char} (hfront : ∀ c ∈ front, p c = true)
    (hhead : ∀ c ∈ s.head?, p c = false) : (front ++ s).dropWhile p = s := by
  rw [List.dropWhile_append_of_pos hfront]
  cases s with
  | nil => rfl
  | cons c s => rw [List.dropWhile_cons_of_neg (by simp [hhead c rfl])]

theorem takeWhile_append_of_head {front : List Char} (hfront : ∀ c ∈ front, p c = true)
    (hhead : ∀ c ∈ s.head?, p c = false) : (front ++ s).takeWhile p = front := by
  rw [List.takeWhile_append_of_pos hfront]
  cases s with
  | nil => exact List.append_nil front
  | cons c s => rw [List.takeWhile_cons_of_neg (by simp [hhead c rfl]), List.append_nil]

theorem stripBy_append_append {front back : List Char} (hfront : ∀ c ∈ front, p c = true)
    (hback : ∀ c ∈ back, p c = true) (hhead : ∀ c ∈ s.head?, p c = false)
    (hlast : ∀ c ∈ s.getLast?, p c = false) : stripBy p (front ++ s ++ back) = s := by
  cases s with
  | nil =>
      rw [List.append_nil, stripBy_eq_nil_iff, List.forall_mem_append]
      exact ⟨hfront, hback⟩
  | cons c s =>
      have hdrop : (front ++ (c :: s ++ back)).dropWhile p = c :: s ++ back :=
        dropWhile_append_of_head hfront (by simpa using hhead)
      rw [stripBy, List.append_assoc, hdrop, List.reverse_append,
        dropWhile_append_of_head (fun d hd => hback d (List.mem_reverse.1 hd))
          (by rwa [List.head?_reverse]), List.reverse_reverse]

theorem stripBy_eq_self_of_ends (hhead : ∀ c ∈ s.head?, p c = false)
    (hlast : ∀ c ∈ s.getLast?, p c = false) : stripBy p s = s := by
  have hnone : ∀ c ∈ ([] : List Char), p c = true := by simp
  have hstrip := stripBy_append_append hnone hnone hhead hlast
  rwa [List.nil_append, List.append_nil] at hstrip

theorem stripBy_eq_self (h : ∀ c ∈ s, p c = false) : stripBy p s = s :=
  stripBy_eq_self_of_ends (fun c hc => h c (List.mem_of_mem_head? hc))
    fun c hc => h c (List.mem_of_mem_getLast? hc)

theorem head?_stripBy : ∀ c ∈ (stripBy p s).head?, p c = false := by
  intro c hc
  obtain ⟨rest, hstrip⟩ := List.head?_eq_some_iff.1 hc
  have hpre : stripBy p s <+: s.dropWhile p := List.rdropWhile_prefix p _
  have hhead : (s.dropWhile p).head? = some c := by
    obtain ⟨t, ht⟩ := hpre
    rw [← ht, hstrip]
    rfl
  have hnot := List.head?_dropWhile_not p s
  rw [hhead] at hnot
  simpa using hnot

theorem getLast?_stripBy : ∀ c ∈ (stripBy p s).getLast?, p c = false := by
  intro c hc
  have hhead := List.head?_dropWhile_not p (s.dropWhile p).reverse
  rw [stripBy, List.getLast?_reverse] at hc
  rw [hc] at hhead
  simpa using hhead

theorem stripBy_eq_self_iff :
    stripBy p s = s ↔ (∀ c ∈ s.head?, p c = false) ∧ ∀ c ∈ s.getLast?, p c = false := by
  constructor
  · intro h
    rw [← h]
    exact ⟨head?_stripBy, getLast?_stripBy⟩
  · rintro ⟨hhead, hlast⟩
    exact stripBy_eq_self_of_ends hhead hlast

theorem stripBy_stripBy (p : Char → Bool) (s : List Char) :
    stripBy p (stripBy p s) = stripBy p s :=
  stripBy_eq_self_iff.2 ⟨head?_stripBy, getLast?_stripBy⟩

/-- What stands around a text is stripped with it. -/
theorem stripBy_append_of_forall {front back : List Char} (hfront : ∀ c ∈ front, p c = true)
    (hback : ∀ c ∈ back, p c = true) : stripBy p (front ++ s ++ back) = stripBy p s := by
  rw [stripBy, stripBy, List.append_assoc, List.dropWhile_append_of_pos hfront,
    List.dropWhile_append]
  split_ifs with hs
  · rw [List.isEmpty_iff.1 hs, List.dropWhile_eq_nil_iff.2 hback]
  · rw [List.reverse_append,
      List.dropWhile_append_of_pos fun c hc => hback c (List.mem_reverse.1 hc)]

theorem isBlankText_iff (s : String) : isBlankText s = true ↔ trimChars s = [] := by
  simp [isBlankText, trimChars, stripBy_eq_nil_iff]

theorem trimChars_ofList_trimChars (s : String) :
    trimChars (String.ofList (trimChars s)) = trimChars s := by
  rw [trimChars, String.toList_ofList, trimChars, stripBy_stripBy]

/-- No white space of any kind. -/
def NoBlank (s : String) : Prop :=
  ∀ c ∈ s.toList, isBlank c = false

instance (s : String) : Decidable (NoBlank s) :=
  List.decidableBAll _ s.toList

theorem trimChars_eq_toList {s : String} (h : NoBlank s) : trimChars s = s.toList :=
  stripBy_eq_self h

theorem trim_eq_self {s : String} (h : NoBlank s) : trim s = s := by
  rw [trim, trimChars_eq_toList h, String.ofList_toList]

theorem wordsFrom_append {w : List Char} (h : ∀ c ∈ w, isBlank c = false) (cur s : List Char) :
    wordsFrom cur (w ++ s) = wordsFrom (w.reverse ++ cur) s := by
  induction w generalizing cur with
  | nil => rfl
  | cons c w ih =>
      rw [List.forall_mem_cons] at h
      rw [List.cons_append, wordsFrom, if_neg (by simp [h.1]), ih h.2, List.reverse_cons,
        List.append_assoc, List.singleton_append]

theorem wordsFrom_cons_of_ne_nil {w : List Char} (h : ∀ c ∈ w, isBlank c = false) (hne : w ≠ [])
    (s : List Char) : wordsFrom [] (w ++ ' ' :: s) = w :: wordsFrom [] s := by
  have hempty : w.reverse.isEmpty = false := by simpa using hne
  have hspace : isBlank ' ' = true := by decide
  rw [wordsFrom_append h, List.append_nil, wordsFrom, if_pos hspace, hempty, List.reverse_reverse]
  rfl

theorem words_append {first second : String} (hfirst : NoBlank first) (hne : first ≠ "")
    (hsecond : NoBlank second) (hne' : second ≠ "") :
    words (first ++ " " ++ second) = [first, second] := by
  have hnil : ∀ {s : String}, s ≠ "" → s.toList ≠ [] := fun hs heq =>
    hs (String.toList_inj.1 heq)
  have htoList : (first ++ " " ++ second).toList = first.toList ++ ' ' :: (second.toList ++ []) := by
    simp
  have hempty : second.toList.reverse.isEmpty = false := by simpa using hnil hne'
  rw [words, htoList, wordsFrom_cons_of_ne_nil hfirst (hnil hne), wordsFrom_append hsecond,
    List.append_nil, wordsFrom, hempty]
  simp

end TableQuery.Text
