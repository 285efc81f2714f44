import TableQuery.Proofs.Text.Blank
import TableQuery.Proofs.Text.Split
import TableQuery.Rows.Select

/-!
# Filters written out

A filter that is written with its literal in quotes denotes that column and that literal, unless the
literal has quotes of its own at an end. It keeps the rows that hold the literal in the column, and
a text without an equals sign keeps every row.
-/

namespace TableQuery

open TableQuery.Text

namespace Equality

/-- The text of a filter, its literal in quotes. -/
def written (column literal : String) : String :=
  column ++ " = '" ++ literal ++ "'"

/-- Neither the first nor the last character is a quote. -/
def Unquoted (literal : String) : Prop :=
  (∀ c ∈ literal.toList.head?, isQuote c = false) ∧
    ∀ c ∈ literal.toList.getLast?, isQuote c = false

instance (literal : String) : Decidable (Unquoted literal) :=
  @instDecidableAnd _ _ (Option.decidableForallMem literal.toList.head?)
    (Option.decidableForallMem literal.toList.getLast?)

variable {s column : String}

/-- What stands on both sides of the first equals sign is the filter. -/
theorem ofText?_of_cut {before after : List Char} (hs : s.toList = before ++ '=' :: after)
    (hbefore : '=' ∉ before) :
    ofText? s = some ⟨String.ofList (stripBy isBlank before),
      String.ofList (stripBy isQuote (stripBy isBlank after))⟩ := by
  have hcut : cutFirst '=' s.toList = (before, some after) := cutFirst_eq_some_iff.2 ⟨hs, hbefore⟩
  have hblank : isBlankText s = false := by
    rw [isBlankText, List.all_eq_false]
    exact ⟨'=', by simp [hs], by decide⟩
  rw [ofText?, hblank, tokens, hcut]
  simp

theorem ofText?_eq_none_iff : ofText? s = none ↔ '=' ∉ s.toList := by
  constructor
  · intro h hmem
    cases hcut : (cutFirst '=' s.toList).2 with
    | none => exact cutFirst_snd_eq_none_iff.1 hcut hmem
    | some after =>
        obtain ⟨hs, hbefore⟩ := cutFirst_eq_some_iff.1 (Prod.ext rfl hcut)
        rw [ofText?_of_cut hs hbefore] at h
        cases h
  · intro h
    have hcut := cutFirst_snd_eq_none_iff.2 h
    rw [ofText?]
    split_ifs
    · rfl
    · simp only [tokens, hcut]

theorem parse?_eq_none {text : Option String} (h : ∀ s ∈ text, '=' ∉ s.toList) :
    parse? text = none := by
  cases text with
  | none => rfl
  | some s => exact ofText?_eq_none_iff.2 (h s rfl)

/-- A name that a filter can be written for: no white space around it and no equals sign in it. -/
def IsWritable (column : String) : Prop :=
  trim column = column ∧ '=' ∉ column.toList

instance (column : String) : Decidable (IsWritable column) :=
  inferInstanceAs (Decidable (trim column = column ∧ '=' ∉ column.toList))

theorem ofText?_written (h : IsWritable column) (literal : String) :
    ofText? (written column literal) =
      some ⟨column, String.ofList (stripBy isQuote literal.toList)⟩ := by
  have hends : stripBy isBlank column.toList = column.toList := by
    rw [← trimChars, ← toList_trim, h.1]
  obtain ⟨hhead, hlast⟩ := stripBy_eq_self_iff.1 hends
  have hspace : ∀ c ∈ [' '], isBlank c = true := List.forall_mem_singleton.2 (by decide)
  have hquote : ∀ c ∈ ['\''], isQuote c = true := List.forall_mem_singleton.2 (by decide)
  have hbefore : stripBy isBlank ([] ++ column.toList ++ [' ']) = column.toList :=
    stripBy_append_append (by simp) hspace hhead hlast
  have hafter : stripBy isBlank ([' '] ++ ('\'' :: (literal.toList ++ ['\''])) ++ []) =
      '\'' :: (literal.toList ++ ['\'']) :=
    stripBy_append_append hspace (by simp) (by simp; decide)
      (by rw [← List.cons_append, List.getLast?_concat]; simp; decide)
  have hliteral : stripBy isQuote (['\''] ++ literal.toList ++ ['\'']) =
      stripBy isQuote literal.toList :=
    stripBy_append_of_forall hquote hquote
  have hs : (written column literal).toList =
      ([] ++ column.toList ++ [' ']) ++ '=' ::
        ([' '] ++ ('\'' :: (literal.toList ++ ['\''])) ++ []) := by
    simp [written]
  have hnone : '=' ∉ [] ++ column.toList ++ [' '] := by simp [h.2]
  rw [ofText?_of_cut hs hnone, hbefore, hafter, String.ofList_toList]
  exact congrArg (fun t => some (Equality.mk column (String.ofList t))) hliteral

/-- The literal comes back as it was written exactly when there is no quote at its ends. -/
theorem ofText?_written_eq_iff (h : IsWritable column) (literal : String) :
    ofText? (written column literal) = some ⟨column, literal⟩ ↔ Unquoted literal := by
  have hliteral : String.ofList (stripBy isQuote literal.toList) = literal ↔
      stripBy isQuote literal.toList = literal.toList := by
    rw [← String.toList_inj, String.toList_ofList]
  rw [ofText?_written h, Option.some.injEq, Equality.mk.injEq, hliteral,
    stripBy_eq_self_iff, Unquoted]
  exact and_iff_right rfl

end Equality

namespace Rows

/-- The row has a value in the column, and its words are the literal up to case. -/
def Holds (column literal : String) (row : Row) : Prop :=
  ∃ v, row.get? column = some v ∧ v ≠ .null ∧ fold v.words = fold literal

theorem satisfies_iff {p : Equality} {row : Row} :
    satisfies p row = true ↔ Holds p.column p.literal row := by
  rw [satisfies, Holds]
  cases row.get? p.column with
  | none => simp
  | some v =>
      simp only [Value.matchesText, Bool.and_eq_true, Bool.not_eq_true', ← Bool.not_eq_true,
        Value.isNull_iff, sameFold_iff, Option.some.injEq, exists_eq_left']

instance (column literal : String) : DecidablePred (Holds column literal) := fun _ =>
  decidable_of_iff _ (satisfies_iff (p := ⟨column, literal⟩))

theorem filter_of_ofText? {s column literal : String}
    (h : Equality.ofText? s = some ⟨column, literal⟩) (rows : List Row) :
    filter rows (some s) = rows.filter (Holds column literal) := by
  rw [filter, Equality.parse?, Option.bind_some, h]
  refine List.filter_congr fun row _ => ?_
  rw [← Bool.coe_iff_coe, satisfies_iff, decide_eq_true_iff]

/-- What filter texts do. One that is written for a column gives back the column and the literal and
keeps the rows that hold it; a text that is left out, is blank or has no equals sign keeps all. -/
structure SelectsExactly : Prop where
  recovers : ∀ column literal, Equality.IsWritable column →
    (Equality.parse? (some (Equality.written column literal)) = some ⟨column, literal⟩ ↔
      Equality.Unquoted literal)
  keeps : ∀ column literal rows, Equality.IsWritable column → Equality.Unquoted literal →
    filter rows (some (Equality.written column literal)) = rows.filter (Holds column literal)
  passes : ∀ text rows, (∀ s ∈ text, isBlankText s = true ∨ '=' ∉ s.toList) →
    filter rows text = rows

/-- The literals that a filter text recovers are those without a quote at either end. -/
theorem selectsExactly : SelectsExactly := by
  constructor
  case recovers => exact fun column literal h => Equality.ofText?_written_eq_iff h literal
  case keeps =>
    intro column literal rows h hliteral
    exact filter_of_ofText? ((Equality.ofText?_written_eq_iff h literal).2 hliteral) rows
  case passes =>
    intro text rows h
    have hnone : Equality.parse? text = none := Equality.parse?_eq_none fun s hs => by
      rcases h s hs with hblank | hsign
      · intro hmem
        exact absurd (List.all_eq_true.1 hblank _ hmem) (by decide)
      · exact hsign
    rw [filter, hnone]

/-- The same street in two spellings, a missing one, and a row without the column. -/
def streetRows : List Row :=
  [Row.ofList [("street", .text "Hauptstraße = 'alt'?"), ("no", .text "1")],
    Row.ofList [("street", .null), ("no", .text "2")], Row.ofList [("no", .text "3")],
    Row.ofList [("no", .text "4"), ("street", .text "HAUPTSTRASSE = 'ALT'?")]]

theorem selectsExactly_streets :
    (Equality.IsWritable "street" ∧ Equality.Unquoted "hauptstrasse = 'Alt'?") ∧
      Equality.parse? (some "street = 'hauptstrasse = 'Alt'?'") =
        some ⟨"street", "hauptstrasse = 'Alt'?"⟩ ∧
      (filter streetRows (some "street = 'hauptstrasse = 'Alt'?'")).map (·.get? "no") =
        [some (.text "1"), some (.text "4")] ∧
      filter streetRows (some "street") = streetRows := by
  have hcolumn : Equality.IsWritable "street" := by decide
  have hliteral : Equality.Unquoted "hauptstrasse = 'Alt'?" := by decide
  have hkeeps := selectsExactly.keeps _ _ streetRows hcolumn hliteral
  refine ⟨⟨hcolumn, hliteral⟩, (selectsExactly.recovers _ _ hcolumn).2 hliteral, ?_,
    selectsExactly.passes _ streetRows (by decide)⟩
  refine (congrArg (List.map (·.get? "no")) hkeeps).trans ?_
  decide +kernel

end Rows

end TableQuery
