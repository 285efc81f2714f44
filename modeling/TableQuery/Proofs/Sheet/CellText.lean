import TableQuery.Datum
import TableQuery.Proofs.Binary64.RoundTrip

/-!
# Texts of cells

A cell is blank exactly when its text is: numbers have a digit or a letter in their text, moments,
durations and identifiers have marks, and every other value has its letters or brackets.
-/

namespace TableQuery

open TableQuery.Text TableQuery.Calendar

namespace Text

theorem isBlankText_of_mem {s : String} {c : Char} (h : c ∈ s.toList) (hc : isBlank c = false) :
    isBlankText s = false := by
  rw [isBlankText, List.all_eq_false]
  exact ⟨c, h, by rw [hc]; exact Bool.false_ne_true⟩

theorem isBlankText_append (s t : String) :
    isBlankText (s ++ t) = (isBlankText s && isBlankText t) := by
  rw [isBlankText, String.toList_append, List.all_append]
  rfl

theorem isBlankText_append_left {s : String} (h : isBlankText s = false) (t : String) :
    isBlankText (s ++ t) = false := by
  rw [isBlankText_append, h, Bool.false_and]

end Text

namespace Binary64

theorem isBlankText_of_spells {s : List Char} {n : Nat} {e : Int} (h : Spells s n e)
    (negative : Bool) : isBlankText (String.ofList (signText negative ++ s)) = false := by
  rw [← Bool.not_eq_true, isBlankText_iff, trimChars_signText h]
  refine List.append_ne_nil_of_right_ne_nil _ ?_
  cases h with
  | whole hwhole _ => exact List.append_ne_nil_of_left_ne_nil hwhole.ne_nil _
  | point hwhole _ _ => exact List.append_ne_nil_of_left_ne_nil hwhole.ne_nil _

theorem isBlankText_intText (n : Int) : isBlankText (intText n) = false :=
  isBlankText_of_spells (spells_toDigits n.natAbs) _

theorem isBlankText_infinite (neg : Bool) : isBlankText (infinite neg).text = false := by
  cases neg <;> decide

theorem isBlankText_text (x : Binary64) : isBlankText x.text = false := by
  cases x with
  | nan => decide
  | infinite neg => exact isBlankText_infinite neg
  | finite neg units hfits =>
      obtain ⟨negative, chars, n, e, hs, hspells, -⟩ :=
        isNumeralOf_text (x := .finite neg units hfits) rfl
      rw [hs]
      exact isBlankText_of_spells hspells negative

end Binary64

theorem Decimal.isBlankText_text (d : Decimal) : isBlankText d.text = false := by
  cases d with
  | finite neg n e =>
      obtain ⟨m, k, hspells, -⟩ := Binary64.denotes_finiteText n e
      exact Binary64.isBlankText_of_spells hspells neg
  | infinite neg =>
      cases neg <;> decide
  | undefined neg signaling payload =>
      refine isBlankText_of_mem (c := 'N') ?_ (by decide)
      rw [Decimal.text, String.toList_ofList]
      cases signaling <;> simp

namespace Calendar

theorem Date.isBlankText_text (d : Date) : isBlankText d.text = false := by
  refine isBlankText_of_mem (c := '-') ?_ (by decide)
  simp [Date.text, Date.chars]

theorem Timestamp.isBlankText_text (t : Timestamp) : isBlankText t.text = false := by
  refine isBlankText_of_mem (c := '-') ?_ (by decide)
  simp [Timestamp.text, Timestamp.chars, Date.chars]

theorem TimeOfDay.isBlankText_text (t : TimeOfDay) : isBlankText t.text = false := by
  refine isBlankText_of_mem (c := ':') ?_ (by decide)
  simp [TimeOfDay.text, TimeOfDay.chars]

end Calendar

namespace Datum

theorem isBlankText_durationText (micros : Int) : isBlankText (durationText micros) = false := by
  refine isBlankText_of_mem (c := ':') ?_ (by decide)
  simp [durationText]

theorem isBlankText_uuidText (n : Nat) : isBlankText (uuidText n) = false := by
  refine isBlankText_of_mem (c := '-') ?_ (by decide)
  simp [uuidText]

/-- The text of a cell is blank exactly when the cell is. -/
theorem isBlankText_cellText (d : Datum) : isBlankText d.cellText = d.isBlank := by
  cases d with
  | null => rfl
  | text s => rfl
  | bool b => cases b <;> decide
  | int n => exact Binary64.isBlankText_intText n
  | float x => exact x.isBlankText_text
  | decimal d => exact d.isBlankText_text
  | date d => exact d.isBlankText_text
  | datetime t o => exact isBlankText_append_left t.isBlankText_text _
  | time t o => exact isBlankText_append_left t.isBlankText_text _
  | duration micros => exact isBlankText_durationText micros
  | bytes bs =>
      refine isBlankText_of_mem (c := 'b') ?_ (by decide)
      simp [cellText, plain, literal, quotedBytes]
  | uuid n => exact isBlankText_uuidText n
  | list items =>
      refine isBlankText_of_mem (c := '[') ?_ (by decide)
      simp [cellText, plain, literal]

end Datum

end TableQuery
