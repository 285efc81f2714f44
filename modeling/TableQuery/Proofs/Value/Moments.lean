import TableQuery.Proofs.Binary64.Numeral
import TableQuery.Proofs.Calendar.IsoText
import TableQuery.Proofs.Calendar.Ordinal
import TableQuery.Value.Order
import TableQuery.Value.SortKey

/-!
# Moments as cells and as texts

A date or a timestamp that was written into a cell sorts as the timestamp of universal time that a
store's own value gives, and offset texts sort by the instants that they denote. The exception are
offsets of less than a second: their texts are read as if they had none.
-/

namespace TableQuery

open TableQuery.Text TableQuery.Calendar

namespace Calendar

variable (d : Date) {rest : List Char}

theorem Date.exists_chars_eq_cons : ∃ c s, d.chars = c :: s ∧ isAsciiDigit c = true := by
  obtain ⟨c, s, hyear, hc⟩ := exists_padded_eq_cons d.year_lt
  exact ⟨c, _, by rw [Date.chars, hyear, List.cons_append], hc⟩

theorem trimChars_ofList_chars (h : EndsInDigit (d.chars ++ rest)) :
    trimChars (String.ofList (d.chars ++ rest)) = d.chars ++ rest := by
  obtain ⟨c, s, hchars, hc⟩ := d.exists_chars_eq_cons
  obtain ⟨e, hlast, he⟩ := h
  rw [trimChars, String.toList_ofList]
  apply stripBy_eq_self_of_ends
  · intro a ha
    rw [hchars, List.cons_append, List.head?_cons, Option.mem_some_iff] at ha
    exact ha ▸ isBlank_of_isAsciiDigit c hc
  · intro a ha
    exact Option.mem_unique ha hlast ▸ isBlank_of_isAsciiDigit e he

/-- The hyphen after the year keeps a date from being a number. -/
theorem isDecimal_chars (rest : List Char) : Binary64.isDecimal (d.chars ++ rest) = false := by
  obtain ⟨c, s, hyear, -⟩ := exists_padded_eq_cons d.year_lt
  rw [Iso.chars_append]
  exact Binary64.isDecimal_append_cons (fun c => isAsciiDigit_of_mem_padded)
    (fun h => by rw [hyear] at h; cases h) (by decide) (by decide) _

/-- A text that starts with a date and ends in a digit is a timestamp when the international form
has it. -/
theorem readTimestamp_ofList (h : EndsInDigit (d.chars ++ rest)) {t : Timestamp}
    {o : Option Offset} (hread : Iso.read? (d.chars ++ rest) = some (t, o)) :
    readTimestamp (String.ofList (d.chars ++ rest)) = (t.toUniversal (o.getD .zero)).map some := by
  obtain ⟨c, s, hchars, -⟩ := d.exists_chars_eq_cons
  have hempty : (d.chars ++ rest).isEmpty = false := by rw [hchars]; rfl
  rw [readTimestamp, trimChars_ofList_chars d h]
  simp only [hempty, isDecimal_chars, Bool.or_false, Bool.false_eq_true, if_false, hread]
  cases o with
  | none => rw [Option.getD_none, t.toUniversal_zero]; rfl
  | some o => rfl

theorem readTimestamp_date : readTimestamp d.text = .ok (some (.ofDate d)) := by
  have hend := d.endsInDigit_chars
  have hread := Iso.read?_dateChars d
  rw [← List.append_nil d.chars] at hend hread
  have htext := readTimestamp_ofList d hend hread
  rw [List.append_nil, Option.getD_none, Timestamp.toUniversal_zero] at htext
  exact htext

/-- The text of a timestamp gives it back, whatever stands between day and time, with the offset
that is read from the text of its offset counted in. -/
theorem readTimestamp_chars (t : Timestamp) (sep : Char) (o : Option Offset) :
    readTimestamp (String.ofList (t.chars sep ++ Iso.offsetChars o)) =
      (t.toUniversal ((o.map Iso.readOffset).getD .zero)).map some := by
  have hend : EndsInDigit (t.chars sep ++ Iso.offsetChars o) := by
    cases o with
    | none =>
        rw [Iso.offsetChars, List.append_nil]
        exact t.endsInDigit_chars sep
    | some o => exact o.endsInDigit_chars.append _
  have hread := Iso.read?_chars t sep o
  rw [Timestamp.chars, List.append_assoc] at hend hread ⊢
  exact readTimestamp_ofList t.date hend hread

end Calendar

namespace Calendar.Offset

/-- None, or at least a second. -/
def IsLegible (o : Offset) : Prop :=
  o.micros = 0 ∨ 1000000 ≤ o.micros.natAbs

variable {o : Offset}

theorem IsLegible.readOffset_eq (h : o.IsLegible) : Iso.readOffset o = o := by
  rw [Iso.readOffset]
  split_ifs with hlt
  · have hzero : o.micros = 0 := h.resolve_right (Nat.not_le.2 hlt)
    obtain ⟨n, hn⟩ := o
    subst hzero
    rfl
  · rfl

theorem readOffset_eq_zero (h : ¬o.IsLegible) : Iso.readOffset o = .zero := by
  rw [IsLegible, not_or, Nat.not_le] at h
  exact if_pos h.2

end Calendar.Offset

/-- The cell text of a moment sorts as the timestamp that the moment itself gives. -/
def Datum.KeepsMoment (d : Datum) : Prop :=
  ∃ u, Value.ofDatum d = .ok (.timestamp u) ∧ Value.sortKey (.text d.cellText) = .ok (.timestamp u)

namespace Value

theorem sortKey_text {s : String} {t : Timestamp} (h : readTimestamp s = .ok (some t)) :
    sortKey (.text s) = .ok (.timestamp t) := by
  rw [sortKey, textKey, h]

theorem cellText_datetime (t : Timestamp) (o : Option Offset) :
    (Datum.datetime t o).cellText = String.ofList (t.chars ' ' ++ Iso.offsetChars o) := by
  rw [String.ofList_append]
  cases o <;> rfl

theorem sortKey_datetime {t u : Timestamp} {o : Offset}
    (h : t.toUniversal (Iso.readOffset o) = .ok u) :
    sortKey (.text (Datum.datetime t (some o)).cellText) = .ok (.timestamp u) := by
  apply sortKey_text
  rw [cellText_datetime, readTimestamp_chars, Option.map_some, Option.getD_some, h]
  rfl

theorem keepsMoment_iff {t u : Timestamp} {o : Offset} (h : t.toUniversal o = .ok u) :
    (Datum.datetime t (some o)).KeepsMoment ↔ o.IsLegible := by
  have hvalue : ofDatum (.datetime t (some o)) = .ok (.timestamp u) := by
    simp only [ofDatum, Datum.native, ofNative, h]
  constructor
  · rintro ⟨v, hv, hkey⟩
    by_contra hillegible
    have hread : t.toUniversal (Iso.readOffset o) = .ok t := by
      rw [Offset.readOffset_eq_zero hillegible, t.toUniversal_zero]
    rw [sortKey_datetime hread, Except.ok.injEq, timestamp.injEq] at hkey
    rw [hvalue, Except.ok.injEq, timestamp.injEq, ← hkey] at hv
    -- the moment would be its own distance away from itself
    have hinstant := Timestamp.toUniversal_eq_ok_iff.1 h
    rw [hv] at hinstant
    exact hillegible (.inl (by omega))
  · intro hlegible
    exact ⟨u, hvalue, sortKey_datetime (by rw [hlegible.readOffset_eq, h])⟩

/-- The texts of a date, of a timestamp and of a timestamp with an offset are read as the moments
that they denote. -/
structure MomentsKept (d : Date) (t : Timestamp) (o : Offset) : Prop where
  date : (Datum.date d).KeepsMoment
  plain : (Datum.datetime t none).KeepsMoment
  offset : ∀ u, t.toUniversal o = .ok u →
    ((Datum.datetime t (some o)).KeepsMoment ↔ o.IsLegible)
  illegible : ¬o.IsLegible →
    sortKey (.text (Datum.datetime t (some o)).cellText) = .ok (.timestamp t)
  printed : readTimestamp t.text = .ok (some t) ∧ readTimestamp t.iso = .ok (some t)
  sorted : ∀ u t' o' u', o.IsLegible → o'.IsLegible → t.toUniversal o = .ok u →
    t'.toUniversal o' = .ok u' → ∃ key key',
      sortKey (.text (Datum.datetime t (some o)).cellText) = .ok key ∧
      sortKey (.text (Datum.datetime t' (some o')).cellText) = .ok key' ∧
      compare key key' = Ord.compare (t.instant - o.micros) (t'.instant - o'.micros)

/-- Dates, timestamps and timestamps with an offset are kept by their texts, but for offsets of
less than a second, whose texts lose them. Offset texts sort by the instants that they denote. -/
theorem momentsKept (d : Date) (t : Timestamp) (o : Offset) : MomentsKept d t o := by
  have hprinted : ∀ sep : Char, readTimestamp (String.ofList (t.chars sep)) = .ok (some t) := by
    intro sep
    have h := readTimestamp_chars t sep none
    rw [Iso.offsetChars, List.append_nil, Option.map_none, Option.getD_none,
      t.toUniversal_zero] at h
    exact h
  constructor
  case date => exact ⟨_, rfl, sortKey_text (readTimestamp_date d)⟩
  case plain =>
    refine ⟨t, rfl, sortKey_text ?_⟩
    rw [cellText_datetime, Iso.offsetChars, List.append_nil]
    exact hprinted ' '
  case offset => exact fun u h => keepsMoment_iff h
  case illegible =>
    intro h
    apply sortKey_datetime
    rw [Offset.readOffset_eq_zero h, t.toUniversal_zero]
  case printed => exact ⟨hprinted ' ', hprinted 'T'⟩
  case sorted =>
    intro u t' o' u' ho ho' hu hu'
    refine ⟨_, _, sortKey_datetime (by rw [ho.readOffset_eq, hu]),
      sortKey_datetime (by rw [ho'.readOffset_eq, hu']), ?_⟩
    rw [← Timestamp.toUniversal_eq_ok_iff.1 hu, ← Timestamp.toUniversal_eq_ok_iff.1 hu']
    exact Timestamp.compare_eq_compare_instant u u'

/-- A clock that is half a millisecond ahead at New Year 2024 still has the old year. -/
theorem not_keepsMoment : ¬∀ (t : Timestamp) (o : Offset) (u : Timestamp),
    t.toUniversal o = .ok u → (Datum.datetime t (some o)).KeepsMoment := by
  intro h
  have huniversal : (Timestamp.ofDate ⟨2024, 1, 1, by decide⟩).toUniversal ⟨500, by decide⟩ =
      .ok ⟨⟨2023, 12, 31, by decide⟩, ⟨86399999500, by decide⟩⟩ := by
    rw [Timestamp.toUniversal_eq_ok_iff]
    decide +kernel
  have hlegible := (keepsMoment_iff huniversal).1 (h _ _ _ huniversal)
  rw [Offset.IsLegible] at hlegible
  revert hlegible
  decide

end Value

end TableQuery
