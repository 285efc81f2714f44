import TableQuery.Proofs.Binary64.Numeral
import TableQuery.Proofs.Calendar.IsoText
import TableQuery.Proofs.Calendar.LayoutMarks
import TableQuery.Value.SortKey

/-!
# Timestamps in the customary layouts

A text that was written in a layout is no number and is not in the international form: its leading
digits, at most four, are followed by a slash, white space or the name of a month. So it is read in
the layouts, and none of them reads it otherwise than it was written.
-/

namespace TableQuery

open TableQuery.Text TableQuery.Calendar

namespace Calendar

/-- The characters that end the digits in front of a text in a layout: a slash, white space, the
first letter of a month. -/
def isBreak (c : Char) : Bool :=
  c == '/' || isBlank c || "jfmasond".toList.contains c.toLower

theorem isDigit_of_isBreak {c : Char} (h : isBreak c = true) : isDigit c = false := by
  rw [isBreak, Bool.or_eq_true, Bool.or_eq_true, beq_iff_eq] at h
  rcases h with (rfl | hblank) | hletter
  · decide
  · exact isDigit_of_isBlank hblank
  · have hletters : "jfmasond".toList.all isAsciiLetter = true := by decide
    have hc := List.all_eq_true.1 hletters _ (List.contains_iff_mem.1 hletter)
    exact isDigit_of_isAsciiLetter c (isAsciiLetter_of_toLower hc)

theorem ne_of_isBreak {c d : Char} (h : isBreak c = true) (hd : isBreak d = false) : c ≠ d := by
  rintro rfl
  rw [h] at hd
  cases hd

/-- A layout that starts with a number and a slash or white space, or with the name of a month. -/
def opens : Layout → Bool
  | part :: next :: _ =>
    part == .monthName || part == .monthShort ||
      (part.isNumber || part == .year) && (next == .mark '/' || next == .blank)
  | _ => false

theorem opens_of_mem_layouts : ∀ layout ∈ layouts, opens layout = true := by
  decide

variable {t : Timestamp} {layout : Layout} {part next : Part} {s : List Char}

/-- The digits in front of a text, at most four, end at a character that no number and no date in
the international form has in that place. -/
def Breaks (s : List Char) : Prop :=
  ∃ ds c rest, s = ds ++ c :: rest ∧ ds.length ≤ 4 ∧ (∀ d ∈ ds, isAsciiDigit d = true) ∧
    isBreak c = true

theorem breaks_of_number (h : Written t (part :: next :: layout) s)
    (hpart : (part.isNumber || part == .year) = true) (hnext : next = .mark '/' ∨ next = .blank) :
    Breaks s := by
  obtain ⟨ds, rest, rfl, hds, hrest⟩ := spelled_cons_iff.1 h
  obtain ⟨mark, rest, rfl, hmark, -⟩ := spelled_cons_iff.1 hrest
  obtain ⟨c, mark', rfl, hc⟩ : ∃ c mark', mark = c :: mark' ∧ isBreak c = true := by
    rcases hnext with rfl | rfl
    · exact ⟨'/', [], hmark, by decide⟩
    · obtain ⟨c, mark', rfl⟩ := List.exists_cons_of_ne_nil hmark.1
      have hblank := hmark.2 c List.mem_cons_self
      exact ⟨c, mark', rfl, by rw [isBreak, hblank, Bool.or_true, Bool.true_or]⟩
  exact ⟨ds, c, mark' ++ rest, rfl, Part.length_le_of_writes hds hpart,
    Part.isAsciiDigit_of_writes hds hpart, hc⟩

theorem breaks_of_name (h : Written t (part :: layout) s)
    (hpart : part = .monthName ∨ part = .monthShort) : Breaks s := by
  obtain ⟨name, rest, rfl, hname, -⟩ := spelled_cons_iff.1 h
  obtain ⟨c, name, rfl⟩ := List.exists_cons_of_ne_nil (Part.ne_nil_of_writes hname)
  have hhead : (nameOfMonth t.date.month).head? = some c.toLower := by
    rcases hpart with rfl | rfl
    · exact (congrArg List.head? hname).symm
    · have htake := congrArg List.head? hname
      rw [List.head?_take, if_neg (by decide)] at htake
      exact htake.symm
  have hinitial : ∀ n ≤ 12, 1 ≤ n →
      (nameOfMonth n).head?.all "jfmasond".toList.contains = true := by
    decide
  have hc := hinitial _ t.date.month_le t.date.one_le_month
  rw [hhead, Option.all_some] at hc
  exact ⟨[], c, name ++ rest, rfl, by decide, by simp, by rw [isBreak, hc, Bool.or_true]⟩

theorem breaks_of_written (hlayout : layout ∈ layouts) (h : Written t layout s) : Breaks s := by
  match layout, opens_of_mem_layouts layout hlayout with
  | part :: next :: layout, hopens =>
      rw [opens, Bool.or_eq_true, Bool.or_eq_true, Bool.and_eq_true] at hopens
      rcases hopens with hname | ⟨hpart, hnext⟩
      · exact breaks_of_name h (by simpa using hname)
      · exact breaks_of_number h hpart (by simpa using hnext)

theorem isDecimal_of_breaks (h : Breaks s) : Binary64.isDecimal s = false := by
  obtain ⟨ds, c, rest, rfl, -, hds, hc⟩ := h
  refine Binary64.isDecimal_append_cons hds (fun _ => ?_) (isDigit_of_isBreak hc) ?_ rest
  · exact ⟨ne_of_isBreak hc (by decide), ne_of_isBreak hc (by decide)⟩
  · simp [ne_of_isBreak hc (d := '.') (by decide), ne_of_isBreak hc (d := 'e') (by decide),
      ne_of_isBreak hc (d := 'E') (by decide)]

theorem Iso.date?_of_breaks (h : Breaks s) (length : Nat) : date? length s = none := by
  obtain ⟨ds, c, rest, rfl, hlength, hds, hc⟩ := h
  have hdigit : isAsciiDigit c = false := by
    rw [← Bool.not_eq_true]
    exact fun hdigit => absurd (isDigit_of_isAsciiDigit c hdigit) (by simp [isDigit_of_isBreak hc])
  rcases Nat.lt_or_eq_of_le hlength with hlt | heq
  · exact date?_append_cons hdigit hlt rest length
  · obtain ⟨year, hyear⟩ := exists_digits?_append hds 0 (c :: rest)
    have hmonth : digits? 2 0 ([] ++ c :: rest) = none :=
      digits?_append_cons hdigit (by decide) 0 rest
    have hhyphen : (c == '-') = false := beq_eq_false_iff_ne.2 (ne_of_isBreak hc (by decide))
    rw [List.nil_append] at hmonth
    rw [heq] at hyear
    rw [date?, hyear]
    simp only [headChar, hhyphen, Bool.false_eq_true, if_false]
    split
    · next hweek => exact absurd (List.cons.inj hweek).1 (ne_of_isBreak hc (by decide))
    · rw [monthDate?, hmonth]

theorem Iso.read?_of_breaks (h : Breaks s) : read? s = none :=
  read?_of_date? (date?_of_breaks h)

theorem isBlank_head_of_written (h : Written t layout s)
    (hlayout : ∀ part ∈ layout.head?, part.isSolid = true) : ∀ c ∈ s.head?, isBlank c = false := by
  intro c hc
  cases h with
  | nil => cases hc
  | cons head tail =>
      rw [List.head?_append_of_ne_nil _ (Part.ne_nil_of_writes head)] at hc
      exact Part.isBlank_of_writes head (hlayout _ rfl) c (List.mem_of_mem_head? hc)

theorem isBlank_getLast_of_written (h : Written t layout s)
    (hlayout : ∀ part ∈ layout.getLast?, part.isSolid = true) :
    ∀ c ∈ s.getLast?, isBlank c = false := by
  induction h with
  | nil => exact fun c hc => by cases hc
  | @cons part layout s rest head tail ih =>
      intro c hc
      cases tail with
      | nil =>
          rw [List.append_nil] at hc
          exact Part.isBlank_of_writes head (hlayout _ rfl) c (List.mem_of_mem_getLast? hc)
      | @cons next layout s' rest' head' tail' =>
          have hne : s' ++ rest' ≠ [] :=
            List.append_ne_nil_of_left_ne_nil (Part.ne_nil_of_writes head') _
          rw [List.getLast?_cons_cons] at hlayout
          rw [List.getLast?_append_of_ne_nil _ hne] at hc
          exact ih hlayout c hc

theorem isSolid_of_mem_layouts : ∀ layout ∈ layouts,
    (∀ part ∈ layout.head?, part.isSolid = true) ∧
      ∀ part ∈ layout.getLast?, part.isSolid = true := by
  decide

end Calendar

/-- A text is read as the timestamp that was written in it, whatever the layout and the white space
around it. -/
theorem readTimestamp_written {layout : Layout} (hlayout : layout ∈ layouts) {t : Timestamp}
    (ht : Resolves layout t) {body : List Char} (hbody : Written t layout body)
    {front back : List Char} (hfront : ∀ c ∈ front, isBlank c = true)
    (hback : ∀ c ∈ back, isBlank c = true) :
    readTimestamp (String.ofList (front ++ body ++ back)) = .ok (some t) := by
  have hbreaks := breaks_of_written hlayout hbody
  have hsolid := isSolid_of_mem_layouts layout hlayout
  have htrim : trimChars (String.ofList (front ++ body ++ back)) = body := by
    rw [trimChars, String.toList_ofList]
    exact stripBy_append_append hfront hback (isBlank_head_of_written hbody hsolid.1)
      (isBlank_getLast_of_written hbody hsolid.2)
  have hempty : body.isEmpty = false := by
    obtain ⟨ds, c, rest, rfl, -⟩ := hbreaks
    exact List.isEmpty_eq_false_iff.2 (by simp)
  rw [readTimestamp, htrim]
  simp only [hempty, isDecimal_of_breaks hbreaks, Iso.read?_of_breaks hbreaks, Bool.or_false,
    Bool.false_eq_true, if_false]
  rw [readLayouts?_of_written hlayout ht hbody]

/-- Five past noon on a clock of twelve hours. -/
theorem readTimestamp_written_noon :
    ∃ layout ∈ layouts, ∃ t, Timestamp.of? 2024 1 2 12 5 0 0 = some t ∧ Resolves layout t ∧
      Written t layout "1/02/2024 12:05 pM".toList ∧
      readTimestamp "\t1/02/2024 12:05 pM  " = .ok (some t) := by
  let t : Timestamp := ⟨⟨2024, 1, 2, by decide⟩, ⟨43500000000, by decide⟩⟩
  let layout : Layout := [.month, .mark '/', .day, .mark '/', .year, .blank, .hourOfHalf, .mark ':',
    .minute, .blank, .half]
  have hlayout : layout ∈ layouts := by decide
  have ht : Resolves layout t :=
    ⟨by decide, fun _ => by decide, fun h => absurd (by decide) h, fun _ h => absurd (by decide) h⟩
  have hparts : List.Forall₂ (Part.Writes t) layout
      (["1", "/", "02", "/", "2024", " ", "12", ":", "05", " ", "pM"].map String.toList) := by
    decide
  obtain ⟨body, hbody, htext⟩ : ∃ body, Written t layout body ∧
      body = "1/02/2024 12:05 pM".toList := ⟨_, spelled_flatten hparts, by decide⟩
  have hfront : ∀ c ∈ ['\t'], isBlank c = true := List.all_eq_true.1 rfl
  have hback : ∀ c ∈ [' ', ' '], isBlank c = true := List.all_eq_true.1 rfl
  have hread := readTimestamp_written hlayout ht hbody hfront hback
  have hwhole : String.ofList (['\t'] ++ body ++ [' ', ' ']) = "\t1/02/2024 12:05 pM  " := by
    rw [htext]
    decide
  rw [hwhole] at hread
  rw [htext] at hbody
  exact ⟨layout, hlayout, t, rfl, ht, hbody, hread⟩

end TableQuery
