import TableQuery.Calendar.Layout
import TableQuery.Proofs.Calendar.Ordinal
import TableQuery.Proofs.Calendar.Printed
import TableQuery.Proofs.Text.Blank
import TableQuery.Proofs.Text.Classes

/-!
# Texts in the customary layouts

A timestamp is written in a layout part by part: numbers with or without a zero in front, names in
any case. The reader of the layout gives the timestamp back when its numbers end before a
character that is no digit and its blanks before one that is no white space.
-/

namespace TableQuery.Calendar

open TableQuery.Text

/-- The texts of a number of at most two digits: with a zero in front of a single one or without. -/
def IsNumeral (n : Nat) (s : List Char) : Prop :=
  s = padded 2 n ∨ s = Nat.toDigits 10 n

/-- The name of a month in lower case. -/
def nameOfMonth (month : Nat) : List Char :=
  (monthNames.getD (month - 1) "").toList

/-- The name of a half of the day in lower case. -/
def nameOfHalf (afternoon : Bool) : List Char :=
  if afternoon then "pm".toList else "am".toList

namespace TimeOfDay

/-- The hour on a clock of twelve hours. -/
def hourOfHalf (t : TimeOfDay) : Nat :=
  (t.hour + 11) % 12 + 1

def isAfternoon (t : TimeOfDay) : Bool :=
  12 ≤ t.hour

variable (t : TimeOfDay)

theorem hour_le : t.hour ≤ 23 :=
  Nat.le_of_lt_succ (Nat.div_lt_of_lt_mul t.lt_day)

theorem hourOfHalf_le : t.hourOfHalf ≤ 12 := by
  rw [hourOfHalf]
  omega

theorem hourOfHalf_mod_add : (t.hourOfHalf % 12 + if t.isAfternoon then 12 else 0) = t.hour := by
  have hle := t.hour_le
  rw [hourOfHalf, isAfternoon]
  split_ifs with h
  · rw [decide_eq_true_eq] at h
    omega
  · rw [decide_eq_true_eq] at h
    omega

end TimeOfDay

/-- The texts that a part may have for a timestamp. -/
def Part.Writes (t : Timestamp) : Part → List Char → Prop
  | .month, s => IsNumeral t.date.month s
  | .day, s => IsNumeral t.date.day s
  | .year, s => s = padded 4 t.date.year
  | .hour, s => IsNumeral t.time.hour s
  | .hourOfHalf, s => IsNumeral t.time.hourOfHalf s
  | .minute, s => IsNumeral t.time.minute s
  | .second, s => IsNumeral t.time.second s
  | .half, s => s.map Char.toLower = nameOfHalf t.time.isAfternoon
  | .monthName, s => s.map Char.toLower = nameOfMonth t.date.month
  | .monthShort, s => s.map Char.toLower = (nameOfMonth t.date.month).take 3
  | .mark c, s => s = [c]
  | .blank, s => s ≠ [] ∧ ∀ c ∈ s, isBlank c = true

instance (n : Nat) (s : List Char) : Decidable (IsNumeral n s) :=
  inferInstanceAs (Decidable (_ ∨ _))

instance (t : Timestamp) (part : Part) (s : List Char) : Decidable (part.Writes t s) :=
  match part with
  | .month | .day | .hour | .hourOfHalf | .minute | .second =>
    inferInstanceAs (Decidable (IsNumeral _ s))
  | .year | .half | .monthName | .monthShort | .mark _ => inferInstanceAs (Decidable (_ = _))
  | .blank => decidable_of_iff (s ≠ [] ∧ s.all isBlank = true) (by rw [List.all_eq_true]; rfl)

/-- A text that consists of the parts of a layout, each of them as `P` has it. -/
inductive Spelled (P : Part → List Char → Prop) : Layout → List Char → Prop
  | nil : Spelled P [] []
  | cons {part : Part} {layout : Layout} {s rest : List Char} (head : P part s)
      (tail : Spelled P layout rest) : Spelled P (part :: layout) (s ++ rest)

theorem spelled_cons_iff {P : Part → List Char → Prop} {part : Part} {layout : Layout}
    {s : List Char} : Spelled P (part :: layout) s ↔
      ∃ front rest, s = front ++ rest ∧ P part front ∧ Spelled P layout rest := by
  constructor
  · intro h
    cases h with
    | cons head tail => exact ⟨_, _, rfl, head, tail⟩
  · rintro ⟨front, rest, rfl, head, tail⟩
    exact .cons head tail

theorem spelled_flatten {P : Part → List Char → Prop} {layout : Layout} {texts : List (List Char)}
    (h : List.Forall₂ P layout texts) : Spelled P layout texts.flatten := by
  induction h with
  | nil => exact .nil
  | cons head _ ih => exact .cons head ih

/-- A timestamp written in a layout. -/
abbrev Written (t : Timestamp) : Layout → List Char → Prop :=
  Spelled (Part.Writes t)

/-- What a layout leaves out of a timestamp is zero. -/
structure Resolves (layout : Layout) (t : Timestamp) : Prop where
  micro : t.time.micro = 0
  second : .second ∉ layout → t.time.second = 0
  minute : .minute ∉ layout → t.time.minute = 0
  hour : .hour ∉ layout → .hourOfHalf ∉ layout → t.time.hour = 0

section Parts

/-- A number of at most two digits passes the tests of its characters in both spellings. -/
def admits (two : Char → Char → Bool) (one : Char → Bool) (n : Nat) : Bool :=
  match padded 2 n, Nat.toDigits 10 n with
  | [a, b], [c] => two a b && one c
  | [a, b], [c, d] => two a b && two c d
  | _, _ => false

theorem numbers_append {two : Char → Char → Bool} {one : Char → Bool} {n : Nat}
    {s rest : List Char} (h : IsNumeral n s) (hadmits : admits two one n = true)
    (hrest : ∀ a, ∀ c ∈ rest.head?, two a c = false) :
    ∃ others, numbers two one (s ++ rest) = (n, rest) :: others := by
  have hpadded := digitsValue_padded 2 n
  have hdigits := digitsValue_toDigits n
  have htwo : ∀ {a b}, two a b = true → digitsValue [a, b] = n →
      ∃ others, numbers two one (a :: b :: rest) = (n, rest) :: others := by
    intro a b hab hvalue
    rw [numbers, if_pos hab, hvalue]
    exact ⟨_, rfl⟩
  rw [admits] at hadmits
  split at hadmits
  · next a b c hab hc =>
      rw [Bool.and_eq_true] at hadmits
      rw [hab] at hpadded
      rw [hc] at hdigits
      rcases h with rfl | rfl
      · rw [hab]
        exact htwo hadmits.1 hpadded
      · rw [hc]
        cases rest with
        | nil => exact ⟨[], by rw [List.append_nil, numbers, if_pos hadmits.2, hdigits]⟩
        | cons d rest =>
            have hcd : two c d = false := hrest c d rfl
            refine ⟨[], ?_⟩
            rw [List.singleton_append, numbers, if_pos hadmits.2, hdigits, hcd]
            rfl
  · next a b c d hab hcd =>
      rw [Bool.and_eq_true] at hadmits
      rw [hab] at hpadded
      rw [hcd] at hdigits
      rcases h with rfl | rfl
      · rw [hab]
        exact htwo hadmits.1 hpadded
      · rw [hcd]
        exact htwo hadmits.2 hdigits
  · cases hadmits

theorem isDigit_of_between {low high : Nat} {c : Char} (hhigh : high ≤ 9)
    (h : between low high c = true) : isDigit c = true := by
  rw [between, Bool.and_eq_true, decide_eq_true_eq, decide_eq_true_eq] at h
  refine isDigit_of_isAsciiDigit c ?_
  rw [isAsciiDigit, Bool.and_eq_true, decide_eq_true_eq, decide_eq_true_eq]
  omega

theorem between_of_isDigit_eq_false {low high : Nat} {c : Char} (h : isDigit c = false)
    (hhigh : high ≤ 9) : between low high c = false := by
  rw [← Bool.not_eq_true] at h ⊢
  exact fun hc => h (isDigit_of_between hhigh hc)

/-- No name starts with another one. -/
def PrefixFree (names : List String) : Prop :=
  ∀ a ∈ names.zipIdx 1, ∀ b ∈ names.zipIdx 1, a.1.toList <+: b.1.toList → a = b

theorem findSome?_eq_some_of_forall {α β : Type} {f : α → Option β} {xs : List α} {y : β} {x : α}
    (hx : x ∈ xs) (hy : f x = some y) (h : ∀ x ∈ xs, ∀ z, f x = some z → z = y) :
    xs.findSome? f = some y := by
  cases hfound : xs.findSome? f with
  | none => rw [List.findSome?_eq_none_iff.1 hfound x hx] at hy; cases hy
  | some z =>
      obtain ⟨x', hx', hz⟩ := List.exists_of_findSome?_eq_some hfound
      rw [h x' hx' z hz]

/-- A name is found in front of any text when no other one is in its way. -/
theorem name?_append {names : List String} (hnames : PrefixFree names) {name : String} {n : Nat}
    (hn : (name, n) ∈ names.zipIdx 1) {s : List Char} (hs : s.map Char.toLower = name.toList)
    (rest : List Char) : name? names (s ++ rest) = some (n, rest) := by
  have hlower : (s ++ rest).map Char.toLower = name.toList ++ rest.map Char.toLower := by
    rw [List.map_append, hs]
  have hlength : s.length = name.length := by
    rw [← String.length_toList, ← hs, List.length_map]
  have hdrop : (s ++ rest).drop name.length = rest := List.drop_left' hlength
  refine findSome?_eq_some_of_forall hn ?_ ?_
  · dsimp only
    rw [hlower, if_pos (List.isPrefixOf_iff_prefix.2 (List.prefix_append _ _)), hdrop]
  · rintro ⟨other, m⟩ hm z hz
    dsimp only at hz
    split_ifs at hz with hprefix
    rw [List.isPrefixOf_iff_prefix, hlower] at hprefix
    have hsame : (other, m) = (name, n) := by
      rcases List.prefix_or_prefix_of_prefix hprefix (List.prefix_append _ _) with h | h
      · exact hnames _ hm _ hn h
      · exact (hnames _ hn _ hm h).symm
    cases hsame
    rw [hdrop] at hz
    exact (Option.some.inj hz).symm

theorem prefixFree_monthNames : PrefixFree monthNames := by
  unfold PrefixFree
  decide

theorem prefixFree_monthShorts :
    PrefixFree (monthNames.map fun name => String.ofList (name.toList.take 3)) := by
  unfold PrefixFree
  decide

theorem prefixFree_halves : PrefixFree ["am", "pm"] := by
  unfold PrefixFree
  decide

end Parts

namespace Part

/-- The parts that are numbers of at most two digits. -/
def isNumber : Part → Bool
  | month | day | hour | hourOfHalf | minute | second => true
  | _ => false

/-- The fields after a part has been read for a timestamp. -/
def fill (t : Timestamp) (f : Fields) : Part → Fields
  | month => { f with month := t.date.month }
  | day => { f with day := t.date.day }
  | year => { f with year := t.date.year }
  | hour => { f with hour := t.time.hour }
  | hourOfHalf => { f with hour := t.time.hourOfHalf }
  | minute => { f with minute := t.time.minute }
  | second => { f with second := t.time.second }
  | half => { f with afternoon := some t.time.isAfternoon }
  | monthName => { f with month := t.date.month }
  | monthShort => { f with month := t.date.month }
  | mark _ => f
  | blank => f

/-- The text that follows a part does not continue it. -/
def Stops (part : Part) (rest : List Char) : Prop :=
  ∀ c ∈ rest.head?, (part.isNumber = true → isDigit c = false) ∧ (part = blank → isBlank c = false)

variable {t : Timestamp} {part : Part} {s rest : List Char}

theorem exists_append {α : Type} {x : α} {xs ys : List α} (h : ∃ others, xs = x :: others) :
    ∃ others, xs ++ ys = x :: others := by
  obtain ⟨others, rfl⟩ := h
  exact ⟨others ++ ys, rfl⟩

theorem map_numbers_append {α : Type} {two : Char → Char → Bool} {one : Char → Bool}
    {g : Nat × List Char → α} {low high n : Nat} (hn : IsNumeral n s) (hlow : low ≤ n)
    (hhigh : n ≤ high) (hadmits : ∀ n ≤ high, low ≤ n → admits two one n = true)
    (htwo : ∀ a c, isDigit c = false → two a c = false)
    (hrest : ∀ c ∈ rest.head?, isDigit c = false) :
    ∃ others, (numbers two one (s ++ rest)).map g = g (n, rest) :: others := by
  obtain ⟨others, hread⟩ :=
    numbers_append hn (hadmits n hhigh hlow) fun a c hc => htwo a c (hrest c hc)
  exact ⟨others.map g, by rw [hread, List.map_cons]⟩

/-- What was written for a timestamp is what is read first, and the rest is left. -/
theorem readings_append (h : part.Writes t s) (hstops : part.Stops rest) (f : Fields) :
    ∃ others, part.readings f (s ++ rest) = (part.fill t f, rest) :: others := by
  have hdigit : part.isNumber = true → ∀ c ∈ rest.head?, isDigit c = false :=
    fun hpart c hc => (hstops c hc).1 hpart
  cases part with
  | month =>
      dsimp only [readings]
      exact map_numbers_append h t.date.one_le_month t.date.month_le (by decide)
        (fun a c hc => by simp [upToTwelve, between_of_isDigit_eq_false hc]) (hdigit rfl)
  | day =>
      dsimp only [readings]
      rw [List.map_append]
      exact exists_append (map_numbers_append h t.date.one_le_day
        (t.date.day_le.trans (Date.daysInMonth_le _ _)) (by decide)
        (fun a c hc => by simp [between_of_isDigit_eq_false hc, hc]) (hdigit rfl))
  | year =>
      have hs : s = padded 4 t.date.year := h
      have hlength : s.length = 4 := by rw [hs, length_padded t.date.year_lt]
      have hdigits : s.all isDigit = true := by
        rw [List.all_eq_true, hs]
        exact fun c hc => isDigit_of_isAsciiDigit c (isAsciiDigit_of_mem_padded hc)
      have hvalue : digitsValue s = t.date.year := by rw [hs, digitsValue_padded]
      refine ⟨[], ?_⟩
      simp [readings, fill, -List.all_eq_true, List.take_left' hlength, List.drop_left' hlength,
        hlength, hdigits, hvalue]
  | hour =>
      dsimp only [readings]
      exact map_numbers_append h (Nat.zero_le _) t.time.hour_le (by decide)
        (fun a c hc => by simp [between_of_isDigit_eq_false hc, hc]) (hdigit rfl)
  | hourOfHalf =>
      dsimp only [readings]
      exact map_numbers_append h (Nat.succ_pos _) t.time.hourOfHalf_le (by decide)
        (fun a c hc => by simp [upToTwelve, between_of_isDigit_eq_false hc]) (hdigit rfl)
  | minute =>
      dsimp only [readings]
      exact map_numbers_append h (Nat.zero_le _) (Nat.le_of_lt_succ t.time.minute_lt) (by decide)
        (fun a c hc => by simp [hc]) (hdigit rfl)
  | second =>
      dsimp only [readings]
      exact map_numbers_append h (Nat.zero_le _) (Nat.le_of_lt_succ t.time.second_lt) (by decide)
        (fun a c hc => by simp [between_of_isDigit_eq_false hc, hc]) (hdigit rfl)
  | half =>
      have hname : ("am", 1) ∈ ["am", "pm"].zipIdx 1 ∧ ("pm", 2) ∈ ["am", "pm"].zipIdx 1 := by
        decide
      refine ⟨[], ?_⟩
      rw [Writes, nameOfHalf] at h
      rw [readings, fill]
      cases hafternoon : t.time.isAfternoon with
      | false =>
          rw [hafternoon] at h
          rw [name?_append prefixFree_halves hname.1 h]
          rfl
      | true =>
          rw [hafternoon] at h
          rw [name?_append prefixFree_halves hname.2 h]
          rfl
  | monthName =>
      have hmonth : ∀ n ≤ 12, 1 ≤ n → (monthNames.getD (n - 1) "", n) ∈ monthNames.zipIdx 1 := by
        decide
      have hname := hmonth _ t.date.month_le t.date.one_le_month
      refine ⟨[], ?_⟩
      rw [readings, name?_append prefixFree_monthNames hname h]
      rfl
  | monthShort =>
      have hmonth : ∀ n ≤ 12, 1 ≤ n → (String.ofList ((nameOfMonth n).take 3), n) ∈
          (monthNames.map fun name => String.ofList (name.toList.take 3)).zipIdx 1 := by
        decide
      have hname := hmonth _ t.date.month_le t.date.one_le_month
      have hs : s.map Char.toLower =
          (String.ofList ((nameOfMonth t.date.month).take 3)).toList := by
        rw [String.toList_ofList]
        exact h
      refine ⟨[], ?_⟩
      rw [readings, name?_append prefixFree_monthShorts hname hs]
      rfl
  | mark c =>
      have hs : s = [c] := h
      refine ⟨[], ?_⟩
      rw [hs, List.singleton_append]
      exact if_pos rfl
  | blank =>
      obtain ⟨hne, hblank⟩ := h
      cases s with
      | nil => exact absurd rfl hne
      | cons c s =>
          rw [List.forall_mem_cons] at hblank
          refine ⟨[], ?_⟩
          rw [List.cons_append, readings, if_pos hblank.1,
            dropWhile_append_of_head hblank.2 fun d hd => (hstops d hd).2 rfl, fill]

/-- The parts that are names. -/
def isName : Part → Bool
  | half | monthName | monthShort => true
  | _ => false

/-- The parts in which no white space stands: all but marks and blanks. -/
def isSolid (part : Part) : Bool :=
  part.isNumber || part == year || part.isName

theorem isAsciiDigit_of_isNumeral {n : Nat} (h : IsNumeral n s) :
    ∀ c ∈ s, isAsciiDigit c = true := by
  intro c hc
  rcases h with rfl | rfl
  · exact isAsciiDigit_of_mem_padded hc
  · exact isAsciiDigit_of_mem_toDigits hc

theorem isAsciiDigit_of_writes (h : part.Writes t s)
    (hpart : (part.isNumber || part == year) = true) : ∀ c ∈ s, isAsciiDigit c = true := by
  cases part with
  | year =>
      intro c hc
      have hs : s = padded 4 t.date.year := h
      exact isAsciiDigit_of_mem_padded (hs ▸ hc)
  | half | monthName | monthShort | mark _ | blank => cases hpart
  | _ => exact isAsciiDigit_of_isNumeral h

theorem length_le_of_isNumeral {n : Nat} (hn : n < 10 ^ 2) (h : IsNumeral n s) : s.length ≤ 2 := by
  have hpadded : (padded 2 n).length = 2 := length_padded hn
  rcases h with rfl | rfl
  · exact hpadded.le
  · rw [padded, List.length_append] at hpadded
    exact hpadded ▸ Nat.le_add_left _ _

theorem length_le_of_writes (h : part.Writes t s) (hpart : (part.isNumber || part == year) = true) :
    s.length ≤ 4 := by
  have htwo : ∀ {n}, n < 10 ^ 2 → IsNumeral n s → s.length ≤ 4 := fun hn hs =>
    (length_le_of_isNumeral hn hs).trans (by decide)
  cases part with
  | month => exact htwo t.date.month_lt h
  | day => exact htwo t.date.day_lt h
  | year =>
      have hs : s = padded 4 t.date.year := h
      rw [hs, length_padded t.date.year_lt]
  | hour => exact htwo t.time.hour_lt h
  | hourOfHalf => exact htwo (t.time.hourOfHalf_le.trans_lt (by decide)) h
  | minute => exact htwo (t.time.minute_lt.trans (by decide)) h
  | second => exact htwo (t.time.second_lt.trans (by decide)) h
  | _ => cases hpart

theorem isAsciiLetter_of_lower {name : List Char} (hname : ∀ c ∈ name, isAsciiLetter c = true)
    (h : s.map Char.toLower = name) : ∀ c ∈ s, isAsciiLetter c = true := fun _ hc =>
  isAsciiLetter_of_toLower (hname _ (h ▸ List.mem_map_of_mem hc))

theorem isAsciiLetter_nameOfMonth (d : Date) :
    ∀ c ∈ nameOfMonth d.month, isAsciiLetter c = true := by
  have hletters : ∀ n ≤ 12, (nameOfMonth n).all isAsciiLetter = true := by decide
  exact List.all_eq_true.1 (hletters _ d.month_le)

theorem isAsciiLetter_of_writes (h : part.Writes t s) (hpart : part.isName = true) :
    ∀ c ∈ s, isAsciiLetter c = true := by
  have hmonth := isAsciiLetter_nameOfMonth t.date
  cases part with
  | half =>
      have hhalf : ∀ afternoon, (nameOfHalf afternoon).all isAsciiLetter = true := by decide
      exact isAsciiLetter_of_lower (List.all_eq_true.1 (hhalf _)) h
  | monthName => exact isAsciiLetter_of_lower hmonth h
  | monthShort => exact isAsciiLetter_of_lower (fun c hc => hmonth c (List.mem_of_mem_take hc)) h
  | _ => cases hpart

theorem isBlank_of_writes (h : part.Writes t s) (hpart : part.isSolid = true) :
    ∀ c ∈ s, isBlank c = false := by
  intro c hc
  rcases Bool.or_eq_true_iff.1 hpart with hnumber | hname
  · exact isBlank_of_isAsciiDigit c (isAsciiDigit_of_writes h hnumber c hc)
  · exact isBlank_of_isAsciiLetter c (isAsciiLetter_of_writes h hname c hc)

theorem ne_nil_of_writes (h : part.Writes t s) : s ≠ [] := by
  have hdigits : ∀ {n}, Nat.toDigits 10 n ≠ [] := Nat.toDigits_ne_nil
  have hpadded : ∀ {width n}, padded width n ≠ [] := List.append_ne_nil_of_right_ne_nil _ hdigits
  have hmonth : ∀ n ≤ 12, 1 ≤ n → nameOfMonth n ≠ [] ∧ (nameOfMonth n).take 3 ≠ [] := by decide
  have hname := hmonth _ t.date.month_le t.date.one_le_month
  have hhalf : ∀ afternoon, nameOfHalf afternoon ≠ [] := by decide
  rintro rfl
  cases part with
  | year => exact hpadded h.symm
  | half => exact hhalf _ h.symm
  | monthName => exact hname.1 h.symm
  | monthShort => exact hname.2 h.symm
  | mark c => cases h
  | blank => exact h.1 rfl
  | _ => exact h.elim (hpadded ∘ Eq.symm) (hdigits ∘ Eq.symm)

/-- The first character of a part ends what stands before it. -/
def follows (part : Part) : Part → Bool
  | blank => part != blank
  | mark c => part != blank && !isDigit c
  | _ => !part.isNumber

theorem stops_of_follows {next : Part} (h : next.Writes t s) (hfollows : part.follows next = true)
    (rest : List Char) : part.Stops (s ++ rest) := by
  intro c hc
  have hmem : c ∈ s := by
    rw [List.head?_append_of_ne_nil _ (ne_nil_of_writes h)] at hc
    exact List.mem_of_mem_head? hc
  cases next with
  | blank =>
      rw [follows, bne_iff_ne] at hfollows
      exact ⟨fun _ => isDigit_of_isBlank (h.2 c hmem), fun hpart => absurd hpart hfollows⟩
  | mark d =>
      have hs : s = [d] := h
      rw [hs, List.mem_singleton] at hmem
      rw [follows, Bool.and_eq_true, bne_iff_ne, Bool.not_eq_true'] at hfollows
      exact ⟨fun _ => hmem ▸ hfollows.2, fun hpart => absurd hpart hfollows.1⟩
  | _ =>
      have hpart : (!part.isNumber) = true := hfollows
      rw [Bool.not_eq_true', ← Bool.not_eq_true] at hpart
      exact ⟨fun hnumber => absurd hnumber hpart, fun _ => isBlank_of_writes h rfl c hmem⟩

end Part

variable {t : Timestamp} {layout : Layout} {s : List Char}

/-- A layout reads its own texts: each part reads what was written for it. -/
theorem readParts?_of_written (h : Written t layout s)
    (hchain : layout.IsChain fun part next => part.follows next = true) (f : Fields) :
    readParts? layout f s = some (layout.foldl (Part.fill t) f) := by
  induction h generalizing f with
  | nil => rfl
  | cons head tail ih =>
      next part layout s rest =>
      have hstops : part.Stops rest := by
        cases tail with
        | nil => exact fun _ hc => by cases hc
        | cons head' _ => exact Part.stops_of_follows head' (List.isChain_cons_cons.1 hchain).1 _
      obtain ⟨others, hread⟩ := Part.readings_append head hstops f
      rw [readParts?, hread, List.findSome?_cons]
      dsimp only
      rw [ih hchain.tail (part.fill t f), List.foldl_cons]

theorem Fields.timestamp?_of_fields {f : Fields} (hmicro : t.time.micro = 0)
    (hyear : f.year = t.date.year) (hmonth : f.month = t.date.month) (hday : f.day = t.date.day)
    (hhour : f.hourOfDay = t.time.hour) (hminute : f.minute = t.time.minute)
    (hsecond : f.second = t.time.second) : f.timestamp? = some t := by
  rw [timestamp?, Timestamp.of?, hyear, hmonth, hday, hhour, hminute, hsecond, ← hmicro,
    TimeOfDay.of?_fields, Date.of?_eq_some_iff.2 ⟨rfl, rfl, rfl⟩]

theorem follows_of_mem_layouts :
    ∀ layout ∈ layouts, layout.IsChain fun part next => part.follows next = true := by
  decide

theorem timestamp?_fill (hlayout : layout ∈ layouts) (h : Resolves layout t) :
    (layout.foldl (Part.fill t) {}).timestamp? = some t := by
  -- What a layout has is filled in from the timestamp; what it leaves out is zero on both sides.
  have htwelve := t.time.hourOfHalf_mod_add
  simp only [layouts, List.mem_cons, List.not_mem_nil, or_false] at hlayout
  rcases hlayout with rfl | rfl | rfl | rfl | rfl | rfl | rfl | rfl | rfl | rfl | rfl
  · exact Fields.timestamp?_of_fields h.micro rfl rfl rfl (h.hour (by decide) (by decide)).symm
      (h.minute (by decide)).symm (h.second (by decide)).symm
  · exact Fields.timestamp?_of_fields h.micro rfl rfl rfl rfl rfl (h.second (by decide)).symm
  · exact Fields.timestamp?_of_fields h.micro rfl rfl rfl rfl rfl rfl
  · exact Fields.timestamp?_of_fields h.micro rfl rfl rfl htwelve rfl (h.second (by decide)).symm
  · exact Fields.timestamp?_of_fields h.micro rfl rfl rfl htwelve rfl rfl
  · exact Fields.timestamp?_of_fields h.micro rfl rfl rfl (h.hour (by decide) (by decide)).symm
      (h.minute (by decide)).symm (h.second (by decide)).symm
  · exact Fields.timestamp?_of_fields h.micro rfl rfl rfl rfl rfl rfl
  all_goals
    exact Fields.timestamp?_of_fields h.micro rfl rfl rfl (h.hour (by decide) (by decide)).symm
      (h.minute (by decide)).symm (h.second (by decide)).symm

/-- A layout reads the timestamp back that was written in it. -/
theorem readLayout?_of_written (hlayout : layout ∈ layouts) (ht : Resolves layout t)
    (h : Written t layout s) : readLayout? layout s = some t := by
  rw [readLayout?, readParts?_of_written h (follows_of_mem_layouts layout hlayout),
    Option.bind_some, timestamp?_fill hlayout ht]

end TableQuery.Calendar
