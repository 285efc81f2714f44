import Mathlib.Data.Prod.Lex
import Mathlib.Logic.Function.Basic
import TableQuery.Proofs.Binary64.RoundTrip
import TableQuery.Proofs.Sql.Rendering
import TableQuery.Proofs.Text.Digits
import TableQuery.Proofs.Text.Replace
import TableQuery.Sql.Statement

/-!
# Values written into a statement

The placeholders of a statement are replaced one after the other, the highest number first. That
gives each placeholder its own value as long as no value holds the placeholder of an earlier one;
otherwise a part of the value is taken for that placeholder and replaced as well.
-/

namespace TableQuery.Sql

open TableQuery.Text

/-- A piece of a template: a text, or the place of a value. -/
inductive Segment (ι : Type)
  | text (s : String)
  | slot (i : ι)

namespace Segment

variable {ι : Type}

/-- The text of a template with a text in every slot. -/
def fill (f : ι → String) : List (Segment ι) → String
  | [] => ""
  | .text s :: T => s ++ fill f T
  | .slot i :: T => f i ++ fill f T

/-- No text of the template holds a dollar sign, and behind a slot the filled template does not go
on with a digit. -/
def Apart (f : ι → String) : List (Segment ι) → Prop
  | [] => True
  | .text s :: T => '$' ∉ s.toList ∧ Apart f T
  | .slot _ :: T => (∀ c ∈ (fill f T).toList.head?, isAsciiDigit c = false) ∧ Apart f T

instance decidableApart (f : ι → String) : (T : List (Segment ι)) → Decidable (Apart f T)
  | [] => .isTrue trivial
  | .text s :: T =>
    @instDecidableAnd ('$' ∉ s.toList) _ inferInstance (decidableApart f T)
  | .slot _ :: T =>
    @instDecidableAnd _ _ (Option.decidableForallMem (fill f T).toList.head?) (decidableApart f T)

/-- Fillings that are apart stay so when they are mixed. -/
theorem Apart.mix {f g h : ι → String} (hmix : ∀ i, g i = f i ∨ g i = h i)
    {T : List (Segment ι)} (hf : Apart f T) (hh : Apart h T) :
    Apart g T ∧ ((∀ c ∈ (fill f T).toList.head?, isAsciiDigit c = false) →
      (∀ c ∈ (fill h T).toList.head?, isAsciiDigit c = false) →
        ∀ c ∈ (fill g T).toList.head?, isAsciiDigit c = false) := by
  induction T with
  | nil => exact ⟨trivial, by simp [fill]⟩
  | cons segment T ih =>
      cases segment with
      | text s =>
          obtain ⟨hapart, hhead⟩ := ih hf.2 hh.2
          refine ⟨⟨hf.1, hapart⟩, ?_⟩
          simp only [fill, String.toList_append]
          cases s.toList with
          | nil => exact hhead
          | cons d t => exact fun hfirst _ => hfirst
      | slot i =>
          obtain ⟨hapart, hhead⟩ := ih hf.2 hh.2
          have hbehind := hhead hf.1 hh.1
          refine ⟨⟨hbehind, hapart⟩, ?_⟩
          -- an empty filling of the slot leaves what stands behind it
          rcases hmix i with hi | hi
          · simp only [fill, String.toList_append, hi]
            cases (f i).toList with
            | nil => exact fun _ _ => hbehind
            | cons d t => exact fun hfirst _ => hfirst
          · simp only [fill, String.toList_append, hi]
            cases (h i).toList with
            | nil => exact fun _ _ => hbehind
            | cons d t => exact fun _ hfirst => hfirst

end Segment

namespace Statement

open Segment

theorem toList_placeholder (n : Nat) : (placeholder n).toList = '$' :: Nat.toDigits 10 n := by
  rw [placeholder, String.toList_append, Nat.toList_repr]
  rfl

theorem toList_placeholder_ne_nil (n : Nat) : (placeholder n).toList ≠ [] := by
  rw [toList_placeholder]
  exact List.cons_ne_nil _ _

theorem le_ofDigitChars (s : List Char) (n : Nat) : n ≤ Nat.ofDigitChars 10 s n := by
  induction s generalizing n with
  | nil => exact Nat.le_refl n
  | cons c s ih =>
      rw [Nat.ofDigitChars_cons]
      exact Nat.le_trans (by omega) (ih _)

/-- Digits that start a number are those of a smaller one. -/
theorem le_of_toDigits_prefix {m n : Nat} (h : Nat.toDigits 10 m <+: Nat.toDigits 10 n) : m ≤ n := by
  obtain ⟨s, hs⟩ := h
  have hvalue : Nat.ofDigitChars 10 (Nat.toDigits 10 m ++ s) 0 = n := by
    rw [hs, Nat.ofDigitChars_ten_toDigits]
  rw [Nat.ofDigitChars_append, Nat.ofDigitChars_ten_toDigits] at hvalue
  exact hvalue ▸ le_ofDigitChars s m

theorem dollar_not_mem_toDigits (n : Nat) : '$' ∉ Nat.toDigits 10 n := fun h =>
  absurd (isAsciiDigit_of_mem_toDigits h) (by decide)

theorem le_of_placeholder_infix {m n : Nat}
    (h : (placeholder m).toList <:+: (placeholder n).toList) : m ≤ n := by
  rw [toList_placeholder, toList_placeholder, List.infix_cons_iff] at h
  rcases h with hpre | hfound
  · exact le_of_toDigits_prefix (List.cons_prefix_cons.1 hpre).2
  · exact absurd (hfound.subset List.mem_cons_self) (dollar_not_mem_toDigits n)

/-- In front of anything but a digit, a text holds the placeholders that it holds by itself. -/
theorem not_placeholder_prefix_append {m : Nat} {w s : List Char}
    (hw : ¬(placeholder m).toList <:+: w) (hs : ∀ c ∈ s.head?, isAsciiDigit c = false) :
    ∀ t, t ≠ [] → t <:+ w → ¬(placeholder m).toList <+: t ++ s := by
  intro t hne ht hpre
  rcases List.prefix_or_prefix_of_prefix hpre (List.prefix_append t s) with hinside | hacross
  · exact hw (hinside.isInfix.trans ht.isInfix)
  · obtain ⟨u, hu⟩ := hacross
    cases u with
    | nil =>
        rw [List.append_nil] at hu
        exact hw (hu ▸ ht.isInfix)
    | cons c u =>
        rw [← hu, List.prefix_append_right_inj] at hpre
        obtain ⟨v, hv⟩ := hpre
        have hdigit : c ∈ Nat.toDigits 10 m := by
          obtain ⟨d, t, rfl⟩ := List.exists_cons_of_ne_nil hne
          rw [toList_placeholder, List.cons_append, List.cons.injEq] at hu
          rw [← hu.2]
          exact List.mem_append_right t List.mem_cons_self
        have hother := hs c (by rw [← hv]; rfl)
        rw [isAsciiDigit_of_mem_toDigits hdigit] at hother
        cases hother

/-- Replacing a placeholder fills its slot. -/
theorem replaceAll_fill {ι : Type} [DecidableEq ι] {g : ι → String} {k : ι} {m : Nat}
    (hk : g k = placeholder m)
    (hother : ∀ i, i ≠ k → ¬(placeholder m).toList <:+: (g i).toList) (new : String)
    {T : List (Segment ι)} (hT : Apart g T) :
    replaceAll (placeholder m) new (fill g T) = fill (Function.update g k new) T := by
  have hne := toList_placeholder_ne_nil m
  have hchars : replaceFrom (placeholder m).toList new.toList 0 (fill g T).toList =
      (fill (Function.update g k new) T).toList := by
    induction T with
    | nil => rfl
    | cons segment T ih =>
        cases segment with
        | text s =>
            have hstart : ∀ t, t ≠ [] → t <:+ s.toList →
                ¬(placeholder m).toList <+: t ++ (fill g T).toList := by
              intro t hne ht hpre
              obtain ⟨c, u, rfl⟩ := List.exists_cons_of_ne_nil hne
              rw [toList_placeholder, List.cons_append, List.cons_prefix_cons] at hpre
              exact hT.1 (hpre.1 ▸ ht.subset List.mem_cons_self)
            rw [fill, fill, String.toList_append, String.toList_append,
              replaceFrom_append hstart, ih hT.2]
        | slot i =>
            rw [fill, fill, String.toList_append, String.toList_append, ← ih hT.2]
            by_cases hi : i = k
            · rw [hi, hk, replaceFrom_append_self hne, Function.update_self]
            · rw [replaceFrom_append (not_placeholder_prefix_append (hother i hi) hT.1),
                Function.update_of_ne hi]
  rw [replaceAll, hchars, String.ofList_toList]

/-- Registers values one after the other and gives their placeholders. -/
def addParams (s : Statement) : List Datum → Statement × List String
  | [] => (s, [])
  | value :: values =>
    let first := s.addParam value
    let rest := first.1.addParams values
    (rest.1, first.2 :: rest.2)

theorem addParams_eq (s : Statement) (values : List Datum) :
    s.addParams values = (⟨s.sql, s.params ++ values⟩,
      (List.range' (s.params.length + 1) values.length).map placeholder) := by
  induction values generalizing s with
  | nil => rw [List.append_nil]; rfl
  | cons value values ih =>
      rw [addParams, ih]
      simp [addParam, List.range'_succ]

/-- The placeholder of each value. -/
def numbered (n : Nat) (i : Fin n) : String :=
  placeholder (i + 1)

/-- The values get the placeholders in their order. -/
theorem addParams_mk_nil (sql : String) (values : List Datum) :
    addParams ⟨sql, []⟩ values = (⟨sql, values⟩, List.ofFn (numbered values.length)) := by
  rw [addParams_eq, Prod.mk.injEq]
  refine ⟨rfl, List.ext_getElem (by simp) fun m _ _ => ?_⟩
  simp [numbered, Nat.add_comm]

section Inlining

variable {values : List Datum}

/-- The written form of each value. -/
def renderings (values : List Datum) (i : Fin values.length) : String :=
  rendered values[i]

/-- No value holds the placeholder of an earlier one. -/
def Unreferenced (values : List Datum) : Prop :=
  ∀ i : Fin values.length, ∀ m < i.val,
    ¬(placeholder (m + 1)).toList <:+: (renderings values i).toList

/-- The slots while the placeholders are replaced: the first ones hold their placeholders, the
others their values. -/
def mixed (values : List Datum) (m : Nat) (i : Fin values.length) : String :=
  if i < m then numbered values.length i else renderings values i

theorem mixed_zero : mixed values 0 = renderings values := by
  funext i
  exact if_neg (Nat.not_lt_zero i)

theorem mixed_length : mixed values values.length = numbered values.length := by
  funext i
  exact if_pos i.isLt

theorem update_mixed {m : Nat} (hm : m < values.length) :
    Function.update (mixed values (m + 1)) ⟨m, hm⟩ (rendered values[m]) = mixed values m := by
  funext i
  rcases eq_or_ne i ⟨m, hm⟩ with rfl | hi
  · rw [Function.update_self, mixed, if_neg (Nat.lt_irrefl m)]
    rfl
  · have hne : i.val ≠ m := fun h => hi (Fin.ext h)
    rw [Function.update_of_ne hi, mixed, mixed]
    exact if_congr (by omega) rfl rfl

/-- The replacements fill one slot after the other. -/
theorem inlineFrom_fill (h : Unreferenced values) {T : List (Segment (Fin values.length))}
    (hnumbered : Apart (numbered values.length) T) (hrenderings : Apart (renderings values) T)
    {m : Nat} (hm : m ≤ values.length) :
    inlineFrom values m (fill (mixed values m) T) = fill (renderings values) T := by
  induction m with
  | zero => rw [mixed_zero]; rfl
  | succ m ih =>
      have hapart : Apart (mixed values (m + 1)) T := by
        refine (Apart.mix (fun i => ?_) hnumbered hrenderings).1
        exact (ite_eq_or_eq (i.val < m + 1) _ _)
      have hslot : mixed values (m + 1) ⟨m, hm⟩ = placeholder (m + 1) := if_pos (Nat.lt_succ_self m)
      have hother : ∀ i, i ≠ ⟨m, hm⟩ →
          ¬(placeholder (m + 1)).toList <:+: (mixed values (m + 1) i).toList := by
        intro i hi
        have hne : i.val ≠ m := fun h => hi (Fin.ext h)
        rw [mixed]
        split
        · next hlt =>
            intro hfound
            have hle := le_of_placeholder_infix hfound
            omega
        · exact h i m (by omega)
      rw [inlineFrom, List.getElem?_eq_getElem hm]
      simp only
      rw [replaceAll_fill hslot hother _ hapart, update_mixed, ih (Nat.le_of_succ_le hm)]

end Inlining

section Weight

/-- A character that no placeholder has. -/
def isOther (c : Char) : Bool :=
  c != '$' && !isAsciiDigit c

/-- The number of characters that no placeholder has, and among equals the number of dollar signs,
the fewer the heavier. -/
def weight (s : String) : Lex (Nat × Natᵒᵈ) :=
  toLex (s.toList.countP isOther, OrderDual.toDual (s.toList.countP (· == '$')))

theorem countP_isOther_placeholder (m : Nat) : (placeholder m).toList.countP isOther = 0 := by
  rw [toList_placeholder, List.countP_eq_zero, List.forall_mem_cons]
  refine ⟨by decide, fun c hc => ?_⟩
  rw [isOther, isAsciiDigit_of_mem_toDigits hc]
  simp

theorem countP_dollar_placeholder (m : Nat) : (placeholder m).toList.countP (· == '$') = 1 := by
  have hdigits : (Nat.toDigits 10 m).countP (· == '$') = 0 :=
    List.count_eq_zero_of_not_mem (dollar_not_mem_toDigits m)
  rw [toList_placeholder, List.countP_cons, hdigits]
  rfl

/-- A text is heavier after a replacement, when a new dollar sign does not come alone. -/
theorem weight_lt_replaceAll {m : Nat} {new s : String}
    (hnew : '$' ∈ new.toList → ∃ c ∈ new.toList, isOther c = true)
    (hs : (placeholder m).toList <:+: s.toList) :
    weight s < weight (replaceAll (placeholder m) new s) := by
  have hne := toList_placeholder_ne_nil m
  obtain ⟨n, hn⟩ := exists_replaced hne new.toList s.toList
  have hpos := hn.pos_of_infix hne hs
  have hothers := hn.countP_add isOther
  have hdollars := hn.countP_add (· == '$')
  rw [countP_isOther_placeholder, Nat.mul_zero, Nat.add_zero] at hothers
  rw [countP_dollar_placeholder, Nat.mul_one] at hdollars
  rw [weight, weight, replaceAll, String.toList_ofList, Prod.Lex.toLex_lt_toLex]
  by_cases hdollar : '$' ∈ new.toList
  · have hgain := Nat.mul_pos hpos (List.countP_pos_iff.2 (hnew hdollar))
    exact .inl (by omega)
  · have hnone : new.toList.countP (· == '$') = 0 := List.count_eq_zero_of_not_mem hdollar
    rw [hnone, Nat.mul_zero, Nat.add_zero] at hdollars
    rcases Nat.eq_zero_or_pos (n * new.toList.countP isOther) with hzero | hgain
    · exact .inr ⟨by dsimp only; omega, OrderDual.toDual_lt_toDual.2 (by omega)⟩
    · exact .inl (by dsimp only; omega)

theorem replaceAll_eq_self {m : Nat} {s : String} (new : String)
    (hs : ¬(placeholder m).toList <:+: s.toList) : replaceAll (placeholder m) new s = s := by
  rw [replaceAll, replaceFrom_eq_self hs, String.ofList_toList]

theorem dollar_not_mem_signText {s : List Char} {n : Nat} {e : Int} (h : Binary64.Spells s n e)
    (negative : Bool) : '$' ∉ (String.ofList (Binary64.signText negative ++ s)).toList := by
  rw [String.toList_ofList]
  exact fun hc => absurd (Binary64.isNumeralChar_signText h negative '$' hc) (by decide)

theorem dollar_not_mem_literal (x : Binary64) : '$' ∉ x.literal.toList := by
  cases x with
  | nan => decide
  | infinite neg => cases neg <;> decide
  | finite neg units hfits =>
      obtain ⟨negative, chars, n, e, hs, hspells, -⟩ :=
        Binary64.isNumeralOf_literal (x := .finite neg units hfits) rfl
      rw [hs]
      exact dollar_not_mem_signText hspells negative

/-- In a written value a dollar sign does not come alone: texts have their quotes, lists their
brackets, and numbers have no dollar sign. -/
theorem exists_isOther_of_dollar_mem {d : Datum} (h : '$' ∈ (rendered d).toList) :
    ∃ c ∈ (rendered d).toList, isOther c = true := by
  cases d with
  | null => exact ⟨'N', by decide, by decide⟩
  | text s => exact ⟨'\'', by simp [rendered], by decide⟩
  | bool b =>
      refine ⟨'e', ?_, by decide⟩
      cases b <;> decide
  | int n => exact absurd h (dollar_not_mem_signText (Binary64.spells_toDigits n.natAbs) _)
  | float x => exact absurd h (dollar_not_mem_literal x)
  | decimal d =>
      cases d with
      | finite neg n e =>
          obtain ⟨m, k, hspells, -⟩ := Binary64.denotes_finiteText n e
          exact absurd h (dollar_not_mem_signText hspells neg)
      | infinite neg =>
          refine ⟨'I', ?_, by decide⟩
          simp [rendered, Datum.plain, Decimal.text]
      | undefined neg signaling payload =>
          refine ⟨'N', ?_, by decide⟩
          cases signaling <;> simp [rendered, Datum.plain, Decimal.text]
  | date d => exact ⟨'-', by simp [rendered, Datum.plain, Calendar.Date.text, Calendar.Date.chars],
      by decide⟩
  | datetime t o =>
      refine ⟨'-', ?_, by decide⟩
      simp [rendered, Datum.plain, Datum.datetimeText, Calendar.Timestamp.text,
        Calendar.Timestamp.chars, Calendar.Date.chars]
  | time t o =>
      refine ⟨':', ?_, by decide⟩
      simp [rendered, Datum.plain, Calendar.TimeOfDay.text, Calendar.TimeOfDay.chars]
  | duration micros => exact ⟨':', by simp [rendered, Datum.plain, Datum.durationText], by decide⟩
  | bytes bs =>
      exact ⟨'b', by simp [rendered, Datum.plain, Datum.literal, quotedBytes], by decide⟩
  | uuid n => exact ⟨'-', by simp [rendered, Datum.plain, Datum.uuidText], by decide⟩
  | list items => exact ⟨'[', by simp [rendered, Datum.plain, Datum.literal], by decide⟩

variable {values : List Datum} {s : String}

/-- The placeholders of numbers that a text does not hold are replaced in vain. -/
theorem inlineFrom_eq_of_absent {k m : Nat} (hkm : k ≤ m)
    (h : ∀ l, k ≤ l → l < m → ¬(placeholder (l + 1)).toList <:+: s.toList) :
    inlineFrom values m s = inlineFrom values k s := by
  induction m, hkm using Nat.le_induction with
  | base => rfl
  | succ m hkm ih =>
      rw [inlineFrom]
      cases values[m]? with
      | none => exact ih fun l hk hl => h l hk (Nat.lt_succ_of_lt hl)
      | some value =>
          dsimp only
          rw [replaceAll_eq_self _ (h m hkm (Nat.lt_succ_self m))]
          exact ih fun l hk hl => h l hk (Nat.lt_succ_of_lt hl)

theorem weight_le_inlineFrom (m : Nat) (s : String) : weight s ≤ weight (inlineFrom values m s) := by
  induction m generalizing s with
  | zero => exact le_rfl
  | succ m ih =>
      rw [inlineFrom]
      cases values[m]? with
      | none => exact ih s
      | some value =>
          by_cases hs : (placeholder (m + 1)).toList <:+: s.toList
          · exact (weight_lt_replaceAll exists_isOther_of_dollar_mem hs).le.trans (ih _)
          · dsimp only
            rw [replaceAll_eq_self _ hs]
            exact ih s

theorem weight_lt_inlineFrom {k m : Nat} (hkm : k < m) (hm : m ≤ values.length)
    (hs : (placeholder (k + 1)).toList <:+: s.toList) :
    weight s < weight (inlineFrom values m s) := by
  induction m generalizing s with
  | zero => exact absurd hkm (Nat.not_lt_zero k)
  | succ m ih =>
      rw [inlineFrom, List.getElem?_eq_getElem hm]
      dsimp only
      by_cases hfirst : (placeholder (m + 1)).toList <:+: s.toList
      · exact (weight_lt_replaceAll exists_isOther_of_dollar_mem hfirst).trans_le
          (weight_le_inlineFrom m _)
      · have hne : k ≠ m := by
          rintro rfl
          exact hfirst hs
        rw [replaceAll_eq_self _ hfirst]
        exact ih (by omega) (Nat.le_of_succ_le hm) hs

/-- A placeholder by itself becomes its value, in which the earlier placeholders are replaced. -/
theorem inlineFrom_numbered (i : Fin values.length) :
    inlineFrom values values.length (numbered values.length i) =
      inlineFrom values i (renderings values i) := by
  have hskip : ∀ l, i.val + 1 ≤ l → l < values.length →
      ¬(placeholder (l + 1)).toList <:+: (numbered values.length i).toList := by
    intro l hil _ hfound
    have hle := le_of_placeholder_infix hfound
    omega
  have hreplace : replaceAll (placeholder (i + 1)) (rendered values[i]) (placeholder (i + 1)) =
      rendered values[i] := by
    rw [replaceAll, replaceFrom_self (toList_placeholder_ne_nil _), String.ofList_toList]
  rw [inlineFrom_eq_of_absent i.isLt hskip, inlineFrom, List.getElem?_eq_getElem i.isLt]
  exact congrArg (inlineFrom values i) hreplace

end Weight

/-- Values are registered under the placeholders in their order. Each of them takes its place in
every template whose slots are not continued by digits exactly when no value holds the placeholder
of an earlier one. -/
theorem inlined_fill_iff (values : List Datum) :
    (∀ sql, addParams ⟨sql, []⟩ values = (⟨sql, values⟩, List.ofFn (numbered values.length))) ∧
      ((∀ T : List (Segment (Fin values.length)), Apart (numbered values.length) T →
          Apart (renderings values) T →
            inlined ⟨fill (numbered values.length) T, values⟩ = fill (renderings values) T) ↔
        Unreferenced values) := by
  refine ⟨fun sql => addParams_mk_nil sql values, ?_, ?_⟩
  · intro hfill i m hm hfound
    have hslot := hfill [.slot i] ⟨by simp [fill], trivial⟩ ⟨by simp [fill], trivial⟩
    rw [inlined, fill, fill, fill, fill, String.append_empty, String.append_empty] at hslot
    have hweight := weight_lt_inlineFrom hm i.isLt.le hfound
    rw [← inlineFrom_numbered, hslot] at hweight
    exact lt_irrefl _ hweight
  · intro h T hnumbered hrenderings
    rw [inlined, ← mixed_length]
    exact inlineFrom_fill h hnumbered hrenderings le_rfl

/-- A digit at the start of a value continues the placeholder in front of it: the values are `5` for
the first, `8` for the tenth and `0` for the twelfth, and the text is read as the tenth. -/
example :
    let values : List Datum := [5, 7, 7, 7, 7, 7, 7, 7, 7, 8, 7, 0].map Datum.int
    let T : List (Segment (Fin 12)) := [.slot 0, .slot 11]
    inlined ⟨fill (numbered 12) T, values⟩ = "8" ∧ fill (renderings values) T = "50" := by
  decide +kernel

/-- A value that holds the placeholder of an earlier one does not stay as it is. -/
theorem not_forall_inlined_fill :
    ¬∀ (values : List Datum) (T : List (Segment (Fin values.length))),
      Apart (numbered values.length) T →
        inlined ⟨fill (numbered values.length) T, values⟩ = fill (renderings values) T := by
  intro h
  have hslots := h [.text "p", .text "$1"] [.slot 0, .text " ", .slot 1] (by decide)
  have hinlined : inlined ⟨"$1 $2", [.text "p", .text "$1"]⟩ = "'p' ''p''" := by decide
  have hfill : fill (renderings [.text "p", .text "$1"]) [.slot 0, .text " ", .slot 1] =
      "'p' '$1'" := by decide
  exact absurd (hinlined.symm.trans (hslots.trans hfill)) (by decide)

end Statement

end TableQuery.Sql
