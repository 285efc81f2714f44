import Mathlib.Data.List.Chain
import TableQuery.Proofs.Text.Split
import TableQuery.Sql.Identifier

/-!
# Words and quoted parts

A statement is spelled from words, which stand in it as they are, and from parts, which
stand in double quotes. As long as neither holds a double quote, cutting the text at its
double quotes gives the parts back, and between them the words that stand there.
-/

namespace TableQuery.Text

/-- The first, third, fifth … element of a list. -/
def outside {α : Type} : List α → List α
  | [] => []
  | [x] => [x]
  | x :: _ :: rest => x :: outside rest

/-- The second, fourth, sixth … element of a list. -/
def inside {α : Type} : List α → List α
  | [] => []
  | [_] => []
  | _ :: y :: rest => y :: inside rest

theorem outside_modifyHead {α : Type} (f : α → α) (xs : List α) :
    outside (xs.modifyHead f) = (outside xs).modifyHead f := by
  rcases xs with _ | ⟨x, _ | ⟨y, rest⟩⟩ <;> rfl

theorem inside_modifyHead {α : Type} (f : α → α) (xs : List α) :
    inside (xs.modifyHead f) = inside xs := by
  rcases xs with _ | ⟨x, _ | ⟨y, rest⟩⟩ <;> rfl

/-- Every dollar sign of a text with the digits behind it. -/
def placeholders : List Char → List (List Char)
  | [] => []
  | c :: s =>
    if c = '$' then ('$' :: s.takeWhile isAsciiDigit) :: placeholders s else placeholders s

theorem placeholders_append {w : List Char} (h : '$' ∉ w) (s : List Char) :
    placeholders (w ++ s) = placeholders s := by
  induction w with
  | nil => rfl
  | cons c w ih =>
      have hc : c ≠ '$' := fun heq => h (by simp [heq])
      rw [List.cons_append, placeholders, if_neg hc, ih fun hw => h (List.mem_cons_of_mem c hw)]

end TableQuery.Text

namespace TableQuery.Sql

open TableQuery.Text

/-- A piece of a statement. -/
inductive Token
  | word (s : String)
  | part (s : List Char)
  deriving DecidableEq

namespace Token

/-- The characters of a piece. -/
def chars : Token → List Char
  | word s => s.toList
  | part s => Identifier.quotePart s

/-- The text of a list of pieces. -/
def spell (ts : List Token) : List Char :=
  ts.flatMap chars

/-- The part in quotes, when there is one. -/
def part? : Token → Option (List Char)
  | word _ => none
  | part s => some s

@[simp] theorem filterMap_word_cons (w : String) (ts : List Token) :
    (word w :: ts).filterMap part? = ts.filterMap part? := rfl

@[simp] theorem filterMap_part_cons (p : List Char) (ts : List Token) :
    (part p :: ts).filterMap part? = p :: ts.filterMap part? := rfl

/-- The words before, between and behind the parts: one list more than there are parts. -/
def runs : List Token → List (List String)
  | [] => [[]]
  | word w :: ts => (runs ts).modifyHead (w :: ·)
  | part _ :: ts => [] :: runs ts

/-- The text of a list of words. -/
def spellWords (ws : List String) : List Char :=
  ws.flatMap String.toList

/-- Neither word nor part holds a double quote. -/
def NoQuote : Token → Prop
  | word s => '"' ∉ s.toList
  | part s => '"' ∉ s

@[simp] theorem spell_nil : spell [] = [] := rfl

theorem spell_cons (t : Token) (ts : List Token) : spell (t :: ts) = t.chars ++ spell ts := rfl

theorem spell_append (ts us : List Token) : spell (ts ++ us) = spell ts ++ spell us :=
  List.flatMap_append

theorem spell_intercalate (sep : List Token) (tss : List (List Token)) :
    spell (List.intercalate sep tss) = List.intercalate (spell sep) (tss.map spell) := by
  induction tss with
  | nil => rfl
  | cons ts tss ih =>
      cases tss with
      | nil => simp
      | cons us tss =>
          rw [List.intercalate_cons_cons, spell_append, spell_append, ih]
          simp only [List.map_cons, List.intercalate_cons_cons]

theorem runs_ne_nil (ts : List Token) : runs ts ≠ [] := by
  induction ts with
  | nil => simp [runs]
  | cons t ts ih =>
      cases t with
      | word w => cases h : runs ts <;> simp_all [runs]
      | part p => simp [runs]

theorem cut_spell_word {w : String} (h : NoQuote (word w)) (ts : List Token) :
    cut '"' (spell (word w :: ts)) = (cut '"' (spell ts)).modifyHead (w.toList ++ ·) :=
  cut_append h (spell ts)

theorem cut_spell_part {p : List Char} (h : NoQuote (part p)) (ts : List Token) :
    cut '"' (spell (part p :: ts)) = [] :: p :: cut '"' (spell ts) := by
  have hspell : spell (part p :: ts) = '"' :: (p ++ '"' :: spell ts) := by
    simp [spell_cons, chars, Identifier.quotePart]
  rw [hspell, cut_cons_self, cut_append_cons h]

/-- The pieces in quotes are the parts. -/
theorem inside_cut_spell {ts : List Token} (h : ∀ t ∈ ts, NoQuote t) :
    inside (cut '"' (spell ts)) = ts.filterMap part? := by
  induction ts with
  | nil => rfl
  | cons t ts ih =>
      have hrest := ih fun u hu => h u (List.mem_cons_of_mem t hu)
      have ht := h t List.mem_cons_self
      cases t with
      | word w =>
          rw [cut_spell_word ht, inside_modifyHead, hrest]
          rfl
      | part p =>
          rw [cut_spell_part ht, inside, hrest]
          rfl

/-- The pieces between the quotes are the words between the parts. -/
theorem outside_cut_spell {ts : List Token} (h : ∀ t ∈ ts, NoQuote t) :
    outside (cut '"' (spell ts)) = (runs ts).map spellWords := by
  induction ts with
  | nil => rfl
  | cons t ts ih =>
      have hrest := ih fun u hu => h u (List.mem_cons_of_mem t hu)
      have ht := h t List.mem_cons_self
      cases t with
      | word w =>
          rw [cut_spell_word ht, outside_modifyHead, hrest, runs]
          cases runs ts <;> rfl
      | part p =>
          rw [cut_spell_part ht, outside, hrest]
          rfl

theorem length_cut_spell {ts : List Token} (h : ∀ t ∈ ts, NoQuote t) :
    (cut '"' (spell ts)).length = 2 * (ts.filterMap part?).length + 1 := by
  induction ts with
  | nil => rfl
  | cons t ts ih =>
      have hrest := ih fun u hu => h u (List.mem_cons_of_mem t hu)
      have ht := h t List.mem_cons_self
      cases t with
      | word w =>
          rw [cut_spell_word ht, List.length_modifyHead, hrest]
          rfl
      | part p =>
          rw [cut_spell_part ht, List.length_cons, List.length_cons, hrest]
          rw [filterMap_part_cons, List.length_cons]
          omega

theorem mem_of_mem_runs {ts : List Token} {run : List String} {w : String}
    (hrun : run ∈ runs ts) (hw : w ∈ run) : word w ∈ ts := by
  induction ts generalizing run with
  | nil =>
      rw [runs, List.mem_singleton] at hrun
      simp [hrun] at hw
  | cons t ts ih =>
      cases t with
      | word v =>
          rw [runs] at hrun
          cases hts : runs ts with
          | nil => exact absurd hts (runs_ne_nil ts)
          | cons first rest =>
              rw [hts] at hrun ih
              rcases List.mem_cons.1 hrun with rfl | hrun
              · rcases List.mem_cons.1 hw with rfl | hw
                · exact List.mem_cons_self
                · exact List.mem_cons_of_mem _ (ih List.mem_cons_self hw)
              · exact List.mem_cons_of_mem _ (ih (List.mem_cons_of_mem first hrun) hw)
      | part p =>
          rw [runs] at hrun
          rcases List.mem_cons.1 hrun with rfl | hrun
          · simp at hw
          · exact List.mem_cons_of_mem _ (ih hrun hw)

/-- The piece that refers to the first parameter. -/
def first : Token :=
  word "$1"

/-- Behind the reference to the parameter stands a space, if anything. -/
def Spaced (t u : Token) : Prop :=
  t = first → u = word " "

theorem placeholders_first (s : List Char) :
    placeholders ("$1".toList ++ s) =
      ('$' :: '1' :: s.takeWhile isAsciiDigit) :: placeholders s := rfl

theorem takeWhile_spellWords_head {ts : List Token} {run : List String} {rest : List (List String)}
    (h : (first :: ts).IsChain Spaced) (hruns : runs ts = run :: rest) :
    (spellWords run).takeWhile isAsciiDigit = [] := by
  cases ts with
  | nil =>
      cases hruns
      rfl
  | cons t ts =>
      have ht : t = word " " := (List.isChain_cons_cons.1 h).1 rfl
      rw [ht, runs] at hruns
      cases hts : runs ts with
      | nil => exact absurd hts (runs_ne_nil ts)
      | cons next others =>
          rw [hts] at hruns
          cases hruns
          rfl

/-- The placeholders between the quotes are the references to the parameter, one for each. -/
theorem placeholders_runs {ts : List Token} (hchain : ts.IsChain Spaced)
    (hwords : ∀ w, word w ∈ ts → word w ≠ first → '$' ∉ w.toList) :
    (runs ts).flatMap (fun run => placeholders (spellWords run)) =
      List.replicate (ts.count first) "$1".toList := by
  induction ts with
  | nil => rfl
  | cons t ts ih =>
      have hrest := ih hchain.tail fun w hw => hwords w (List.mem_cons_of_mem t hw)
      cases t with
      | part p =>
          rw [runs, List.flatMap_cons, hrest, List.count_cons_of_ne (by simp [first])]
          rfl
      | word w =>
          rw [runs]
          cases hts : runs ts with
          | nil => exact absurd hts (runs_ne_nil ts)
          | cons run rest =>
              rw [hts, List.flatMap_cons] at hrest
              rw [List.modifyHead_cons, List.flatMap_cons, spellWords, List.flatMap_cons]
              by_cases hw : word w = first
              · have hdigits := takeWhile_spellWords_head (hw ▸ hchain) hts
                have hw' : w = "$1" := by simpa [first] using hw
                rw [spellWords] at hdigits hrest
                rw [hw, List.count_cons_self, List.replicate_succ, ← hrest, hw',
                  placeholders_first, hdigits]
                rfl
              · rw [List.count_cons_of_ne hw, ← hrest,
                  placeholders_append (hwords w List.mem_cons_self hw)]
                rfl

end Token

end TableQuery.Sql
