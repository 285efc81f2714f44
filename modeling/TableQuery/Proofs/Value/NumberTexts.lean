import TableQuery.Proofs.Binary64.Grammar
import TableQuery.Proofs.Calendar.IsoText
import TableQuery.Proofs.Calendar.LayoutMarks
import TableQuery.Value.SortKey

/-!
# Numbers are no timestamps

A plain number is refused before any form of a timestamp is tried. A number in groups has a sign or
a comma among its first four characters, where the international form has the year, and its marks
are signs, commas and points only, while every layout has a slash or the name of a month. So a text
that is a number is read as a number, whether timestamps or numbers are tried first.
-/

namespace TableQuery

open TableQuery.Text TableQuery.Calendar

open Binary64 (IsNumber number?)

namespace Binary64

variable {sign body whole fraction : List Char} {negative : Bool}

/-- The characters of a number in groups that are no digits. -/
def groupMarks : List Char :=
  ['+', '-', ',', '.']

theorem IsSign.mem_groupMarks (h : IsSign sign negative) : ∀ c ∈ sign, c ∈ groupMarks := by
  cases h <;> simp [groupMarks]

theorem IsFraction.isDigit_or_mem_groupMarks (h : IsFraction body fraction) :
    ∀ c ∈ body, isDigit c = true ∨ c ∈ groupMarks := by
  cases h with
  | none => simp
  | point hfraction =>
      rw [List.forall_mem_cons]
      exact ⟨.inr (by decide), fun c hc => .inl (hfraction.digits c hc)⟩

theorem IsGrouping.isDigit_or_mem_groupMarks (h : IsGrouping body whole fraction) :
    ∀ c ∈ body, isDigit c = true ∨ c ∈ groupMarks := by
  cases h with
  | mk hlead _ _ hgroups htail =>
      rw [List.forall_mem_append, List.forall_mem_append]
      refine ⟨fun c hc => .inl (hlead.digits c hc), fun c hc => ?_, htail.isDigit_or_mem_groupMarks⟩
      rcases mem_flatMap_groups hgroups hc with rfl | hdigit
      · exact .inr (by decide)
      · exact .inl hdigit

/-- A sign or a comma stands among the first four characters of a number in groups. -/
theorem IsGrouping.exists_eq_append_cons (hsign : IsSign sign negative)
    (h : IsGrouping body whole fraction) : ∃ front c rest, sign ++ body = front ++ c :: rest ∧
      front.length < 4 ∧ isAsciiDigit c = false := by
  cases h with
  | @mk lead tail _ _ _ hlength hne _ _ =>
      obtain ⟨rest, hrest⟩ := head_flatMap_groups hne
      rw [hrest]
      cases hsign with
      | none => exact ⟨lead, ',', rest ++ tail, rfl, Nat.lt_succ_of_le hlength, by decide⟩
      | plus => exact ⟨[], '+', _, rfl, by decide, by decide⟩
      | minus => exact ⟨[], '-', _, rfl, by decide, by decide⟩

end Binary64

namespace Calendar

/-- Every layout has a mark that no number in groups has. -/
theorem any_mark_of_mem_allMarks : ∀ layout ∈ layouts, ∀ chars ∈ allMarks layout,
    chars.any (fun c => !Binary64.groupMarks.contains c) = true := by
  decide +kernel

theorem mem_of_mem_marks {s : List Char} {c : Char} (h : c ∈ marks s) :
    ∃ d ∈ s, isDigit d = false ∧ d.toLower = c := by
  obtain ⟨d, hd, rfl⟩ := List.mem_map.1 h
  rw [List.mem_filter, Bool.not_eq_true', Bool.or_eq_false_iff] at hd
  exact ⟨d, hd.1, hd.2.1, rfl⟩

theorem readLayouts?_of_groupMarks {s : List Char}
    (h : ∀ c ∈ s, isDigit c = true ∨ c ∈ Binary64.groupMarks) : readLayouts? s = none := by
  rw [readLayouts?, List.findSome?_eq_none_iff]
  intro layout hlayout
  rw [readLayout?, Option.bind_eq_none_iff]
  intro f hf
  have hmarks := marks_of_spelled (spelled_of_readParts? hf)
  obtain ⟨c, hc, hother⟩ := List.any_eq_true.1 (any_mark_of_mem_allMarks layout hlayout _ hmarks)
  obtain ⟨d, hd, hdigit, rfl⟩ := mem_of_mem_marks hc
  have hlower : Binary64.groupMarks.all (fun d => d.toLower == d) = true := by decide
  rcases h d hd with hd | hd
  · exact absurd hd (by simp [hdigit])
  · rw [beq_iff_eq.1 (List.all_eq_true.1 hlower d hd), List.contains_iff_mem.2 hd] at hother
    cases hother

end Calendar

/-- No number is a timestamp, also where it is beyond the finite range. -/
theorem readTimestamp_of_isNumber {s : String} {negative : Bool} {digits : Nat} {e : Int}
    (h : IsNumber (trimChars s) negative digits e) : readTimestamp s = .ok none := by
  rw [readTimestamp]
  generalize trimChars s = body at h
  split_ifs with hplain
  · rfl
  · cases h with
    | mk hsign hbody =>
        cases hbody with
        | plain hbody => exact absurd (by rw [hbody.isDecimal_append hsign, Bool.or_true]) hplain
        | grouped hbody =>
            obtain ⟨front, c, rest, htext, hlength, hc⟩ := hbody.exists_eq_append_cons hsign
            have hmarks := List.forall_mem_append.2
              ⟨fun c hc => .inr (hsign.mem_groupMarks c hc), hbody.isDigit_or_mem_groupMarks⟩
            have hiso := Iso.read?_of_date? (Iso.date?_append_cons hc hlength rest)
            rw [← htext] at hiso
            rw [hiso]
            exact congrArg Except.ok (readLayouts?_of_groupMarks hmarks)

theorem readTimestamp_of_number? {s : String} {x : Binary64} (h : number? s = some x) :
    readTimestamp s = .ok none := by
  obtain ⟨_, _, _, hnumber, -, -⟩ := Binary64.number?_eq_some_iff.1 h
  exact readTimestamp_of_isNumber hnumber

namespace Value

theorem textKey_of_number? {s : String} {x : Binary64} (h : number? s = some x) :
    textKey s = .ok (.number x) := by
  rw [textKey, readTimestamp_of_number? h, h]

theorem sortKey_of_number? {s : String} {x : Binary64} (h : number? s = some x) :
    sortKey (.text s) = .ok (.number x) := by
  rw [sortKey, textKey_of_number? h]

/-- The key of a text with numbers tried first: its number, else its timestamp, else the text
itself. -/
def numberFirstKey (s : String) : Except OutOfRange Value :=
  match number? s with
  | some x => .ok (.number x)
  | none => (readTimestamp s).map fun t => (t.map timestamp).getD (.text s)

theorem textKey_eq_numberFirstKey (s : String) : textKey s = numberFirstKey s := by
  delta numberFirstKey
  cases hnumber : number? s with
  | some x => rw [textKey_of_number? hnumber]
  | none =>
      rw [textKey, hnumber]
      cases readTimestamp s with
      | error e => rfl
      | ok t =>
          cases t with
          | none => rfl
          | some t => rfl

/-- A text that is read as a number is refused as a timestamp and has the number as its key, and
these texts are the numbers of the grammar within the finite range. So for no text does it matter
which of the two is tried first. -/
theorem numbers_apart_from_timestamps (s : String) :
    (∀ x, number? s = some x →
      readTimestamp s = .ok none ∧ sortKey (.text s) = .ok (.number x)) ∧
    (∀ negative digits e, IsNumber (trimChars s) negative digits e →
      readTimestamp s = .ok none ∧ ((Binary64.ofDecimal negative digits e).isFinite = true →
        number? s = some (.ofDecimal negative digits e))) ∧
    textKey s = numberFirstKey s := by
  refine ⟨fun x h => ?_, fun negative digits e h => ?_, textKey_eq_numberFirstKey s⟩
  · exact ⟨readTimestamp_of_number? h, sortKey_of_number? h⟩
  · exact ⟨readTimestamp_of_isNumber h, fun hfinite =>
      Binary64.number?_eq_some_iff.2 ⟨negative, digits, e, h, rfl, hfinite⟩⟩

/-- Groups of Arabic digits behind a sign, with white space around them. -/
theorem numbers_apart_from_timestamps_arabic :
    number? "\u3000-\u0661,\u0662\u0663\u0664.\u0665\t" = some (.ofDecimal true 12345 (-1)) ∧
      readTimestamp "\u3000-\u0661,\u0662\u0663\u0664.\u0665\t" = .ok none ∧
      sortKey (.text "\u3000-\u0661,\u0662\u0663\u0664.\u0665\t") =
        .ok (.number (.ofDecimal true 12345 (-1))) := by
  have hread : number? "\u3000-\u0661,\u0662\u0663\u0664.\u0665\t" =
      some (.ofDecimal true 12345 (-1)) := by
    decide +kernel
  exact ⟨hread, (numbers_apart_from_timestamps _).1 _ hread⟩

end Value

end TableQuery
