import TableQuery.Proofs.Calendar.LayoutText

/-!
# Layouts told apart

The letters and marks of a text tell in which layout it was written, but for two doubts. One of two
layouts may start with the year and the other with the month: four digits or at most two tell them
apart. And May is its own abbreviation: such a text means the same in both layouts. So the layouts
may be tried in any order.
-/

namespace TableQuery.Calendar

open TableQuery.Text

/-- What is left of a text without digits and white space, in lower case. -/
def marks (s : List Char) : List Char :=
  (s.filter fun c => !(isDigit c || isBlank c)).map Char.toLower

theorem marks_append (s rest : List Char) : marks (s ++ rest) = marks s ++ marks rest := by
  rw [marks, List.filter_append, List.map_append]
  rfl

theorem marks_eq_nil {s : List Char} (h : ∀ c ∈ s, isDigit c = true ∨ isBlank c = true) :
    marks s = [] := by
  rw [marks, List.map_eq_nil_iff, List.filter_eq_nil_iff]
  intro c hc
  rw [Bool.not_eq_true', Bool.not_eq_false, Bool.or_eq_true]
  exact h c hc

theorem marks_of_letters {s : List Char} (h : ∀ c ∈ s, isAsciiLetter c = true) :
    marks s = s.map Char.toLower := by
  rw [marks, List.filter_eq_self.2]
  intro c hc
  rw [isDigit_of_isAsciiLetter c (h c hc), isBlank_of_isAsciiLetter c (h c hc)]
  rfl

namespace Part

/-- The marks of a part in a month and a half of the day. -/
def marksIn (n : Nat) (afternoon : Bool) : Part → List Char
  | half => nameOfHalf afternoon
  | monthName => nameOfMonth n
  | monthShort => (nameOfMonth n).take 3
  | mark c => marks [c]
  | _ => []

/-- The marks that a part may have. -/
def allMarks : Part → List (List Char)
  | half => ["am", "pm"].map String.toList
  | monthName => monthNames.map String.toList
  | monthShort =>
    (monthNames.map fun name => String.ofList (name.toList.take 3)).map String.toList
  | mark c => [marks [c]]
  | _ => [[]]

/-- The texts that a part may take. -/
def Takes : Part → List Char → Prop
  | year, s => s.length = 4 ∧ ∀ c ∈ s, isDigit c = true
  | month, s => s.length ≤ 2 ∧ ∀ c ∈ s, isDigit c = true
  | day, s | hour, s | hourOfHalf, s | minute, s | second, s =>
    ∀ c ∈ s, isDigit c = true ∨ isBlank c = true
  | half, s => s.map Char.toLower ∈ half.allMarks
  | monthName, s => s.map Char.toLower ∈ monthName.allMarks
  | monthShort, s => s.map Char.toLower ∈ monthShort.allMarks
  | mark c, s => s = [c]
  | blank, s => ∀ c ∈ s, isBlank c = true

variable {t : Timestamp} {part : Part} {s rest : List Char}

theorem marks_of_writes (h : part.Writes t s) :
    marks s = part.marksIn t.date.month t.time.isAfternoon := by
  cases part with
  | half | monthName | monthShort =>
      exact (marks_of_letters (isAsciiLetter_of_writes h rfl)).trans h
  | mark c => exact congrArg marks h
  | blank => exact marks_eq_nil fun c hc => .inr (h.2 c hc)
  | _ =>
      exact marks_eq_nil fun c hc =>
        .inl (isDigit_of_isAsciiDigit c (isAsciiDigit_of_writes h rfl c hc))

theorem isAsciiLetter_of_mem_allMarks (hpart : part.isName = true) {name : List Char}
    (h : name ∈ part.allMarks) : ∀ c ∈ name, isAsciiLetter c = true := by
  have hletters : ∀ part ∈ [half, monthName, monthShort], ∀ name ∈ part.allMarks,
      name.all isAsciiLetter = true := by
    decide
  refine List.all_eq_true.1 (hletters part ?_ name h)
  cases part with
  | half | monthName | monthShort => simp
  | _ => cases hpart

theorem marks_of_takes (h : part.Takes s) : marks s ∈ part.allMarks := by
  have hname : part.isName = true → s.map Char.toLower ∈ part.allMarks →
      marks s ∈ part.allMarks := by
    intro hpart hs
    rwa [marks_of_letters (isAsciiLetter_of_lower (isAsciiLetter_of_mem_allMarks hpart hs) rfl)]
  have hnone : (∀ c ∈ s, isDigit c = true ∨ isBlank c = true) → marks s ∈ [[]] := fun hs =>
    List.mem_singleton.2 (marks_eq_nil hs)
  cases part with
  | half | monthName | monthShort => exact hname rfl h
  | mark c => exact List.mem_singleton.2 (congrArg marks h)
  | month | year => exact hnone fun c hc => .inl (h.2 c hc)
  | blank => exact hnone fun c hc => .inr (h c hc)
  | _ => exact hnone h

theorem takes_of_writes (h : part.Writes t s) : part.Takes s := by
  have hdigits : (part.isNumber || part == year) = true → ∀ c ∈ s, isDigit c = true :=
    fun hpart c hc => isDigit_of_isAsciiDigit c (isAsciiDigit_of_writes h hpart c hc)
  cases part with
  | month => exact ⟨length_le_of_isNumeral t.date.month_lt h, hdigits rfl⟩
  | year =>
      have hs : s = padded 4 t.date.year := h
      exact ⟨by rw [hs, length_padded t.date.year_lt], hdigits rfl⟩
  | half =>
      have hhalf : ∀ afternoon, nameOfHalf afternoon ∈ half.allMarks := by decide
      exact (congrArg (· ∈ half.allMarks) h).mpr (hhalf _)
  | monthName =>
      have hmonth : ∀ n ≤ 12, 1 ≤ n → nameOfMonth n ∈ monthName.allMarks := by decide
      have hname := hmonth _ t.date.month_le t.date.one_le_month
      exact (congrArg (· ∈ monthName.allMarks) h).mpr hname
  | monthShort =>
      have hmonth : ∀ n ≤ 12, 1 ≤ n → (nameOfMonth n).take 3 ∈ monthShort.allMarks := by decide
      have hname := hmonth _ t.date.month_le t.date.one_le_month
      exact (congrArg (· ∈ monthShort.allMarks) h).mpr hname
  | mark c => exact h
  | blank => exact h.2
  | _ => exact fun c hc => .inl (hdigits rfl c hc)

/-- A test of two characters that only digits pass. -/
def OnDigits (two : Char → Char → Bool) : Prop :=
  ∀ a b, two a b = true → isDigit a = true ∧ isDigit b = true

theorem OnDigits.and {p q : Char → Bool} (hp : ∀ c, p c = true → isDigit c = true)
    (hq : ∀ c, q c = true → isDigit c = true) : OnDigits fun a b => p a && q b := by
  intro a b h
  rw [Bool.and_eq_true] at h
  exact ⟨hp a h.1, hq b h.2⟩

theorem OnDigits.or {two two' : Char → Char → Bool} (h : OnDigits two) (h' : OnDigits two') :
    OnDigits fun a b => two a b || two' a b := by
  intro a b hab
  rw [Bool.or_eq_true] at hab
  exact hab.elim (h a b) (h' a b)

theorem onDigits_between (low high low' high' : Nat) (h : high ≤ 9) (h' : high' ≤ 9) :
    OnDigits fun a b => between low high a && between low' high' b :=
  .and (fun _ => isDigit_of_between h) fun _ => isDigit_of_between h'

theorem onDigits_upToTwelve : OnDigits upToTwelve :=
  .or (onDigits_between 1 1 0 2 (by decide) (by decide))
    (onDigits_between 0 0 1 9 (by decide) (by decide))

theorem exists_of_mem_numbers {two : Char → Char → Bool} {one : Char → Bool} {n : Nat}
    (htwo : OnDigits two) (hone : ∀ c, one c = true → isDigit c = true)
    (h : (n, rest) ∈ numbers two one s) :
    ∃ taken, s = taken ++ rest ∧ taken.length ≤ 2 ∧ ∀ c ∈ taken, isDigit c = true := by
  have hsingle : ∀ {a}, one a = true → ∀ c ∈ [a], isDigit c = true := fun ha c hc =>
    List.mem_singleton.1 hc ▸ hone _ ha
  match s with
  | [] => cases h
  | [a] =>
      rw [numbers] at h
      split_ifs at h with ha
      · cases List.mem_singleton.1 h
        exact ⟨[a], rfl, Nat.le_succ 1, hsingle ha⟩
      · cases h
  | a :: b :: s =>
      rw [numbers, List.mem_append] at h
      rcases h with h | h
      · split_ifs at h with hab
        · cases List.mem_singleton.1 h
          refine ⟨[a, b], rfl, Nat.le_refl 2, ?_⟩
          rw [List.forall_mem_cons]
          exact ⟨(htwo a b hab).1, fun c hc => List.mem_singleton.1 hc ▸ (htwo a b hab).2⟩
        · cases h
      · split_ifs at h with ha
        · cases List.mem_singleton.1 h
          exact ⟨[a], rfl, Nat.le_succ 1, hsingle ha⟩
        · cases h

theorem exists_of_name? {names : List String} {n : Nat} (h : name? names s = some (n, rest)) :
    ∃ taken, s = taken ++ rest ∧ taken.map Char.toLower ∈ names.map String.toList := by
  obtain ⟨⟨name, m⟩, hname, hread⟩ := List.exists_of_findSome?_eq_some h
  dsimp only at hread
  split_ifs at hread with hprefix
  cases hread
  rw [List.isPrefixOf_iff_prefix, List.prefix_iff_eq_take] at hprefix
  refine ⟨s.take name.length, (List.take_append_drop _ _).symm, ?_⟩
  rw [List.map_take, ← String.length_toList, ← hprefix]
  exact List.mem_map_of_mem (List.fst_mem_of_mem_zipIdx hname)

/-- Nothing but what a part may take is read. -/
theorem takes_of_mem_readings {f g : Fields} (h : (g, rest) ∈ part.readings f s) :
    ∃ taken, s = taken ++ rest ∧ part.Takes taken := by
  have hnumber : ∀ {two one s} {fill : Nat × List Char → Fields × List Char},
      (∀ x, (fill x).2 = x.2) → OnDigits two → (∀ c, one c = true → isDigit c = true) →
      (g, rest) ∈ (numbers two one s).map fill →
      ∃ taken, s = taken ++ rest ∧ taken.length ≤ 2 ∧ ∀ c ∈ taken, isDigit c = true := by
    intro two one s fill hfill htwo hone h
    obtain ⟨⟨n, rest'⟩, hn, heq⟩ := List.mem_map.1 h
    have hrest : rest' = rest := (hfill _).symm.trans (congrArg Prod.snd heq)
    exact exists_of_mem_numbers htwo hone (hrest ▸ hn)
  have hdigits : (∃ taken, s = taken ++ rest ∧ taken.length ≤ 2 ∧ ∀ c ∈ taken, isDigit c = true) →
      ∃ taken, s = taken ++ rest ∧ ∀ c ∈ taken, isDigit c = true ∨ isBlank c = true :=
    fun ⟨taken, hs, _, hdigits⟩ => ⟨taken, hs, fun c hc => .inl (hdigits c hc)⟩
  have hone : ∀ c, between 1 9 c = true → isDigit c = true := fun _ =>
    isDigit_of_between (Nat.le_refl 9)
  cases part with
  | month => exact hnumber (fun _ => rfl) onDigits_upToTwelve hone h
  | day =>
      dsimp only [readings] at h
      rw [List.map_append, List.mem_append] at h
      rcases h with h | h
      · refine hdigits (hnumber (fun _ => rfl) (.or (.or ?_ (.and ?_ fun _ => id)) ?_) hone h)
        · exact onDigits_between 3 3 0 1 (by decide) (by decide)
        · exact fun _ => isDigit_of_between (by decide)
        · exact onDigits_between 0 0 1 9 (by decide) (by decide)
      · split at h
        · -- A day of one digit may stand behind a space, which is then part of the number.
          obtain ⟨taken, rfl, -, htaken⟩ :=
            hnumber (fun _ => rfl) (fun _ _ hab => by cases hab) hone h
          refine ⟨' ' :: taken, rfl, ?_⟩
          exact List.forall_mem_cons.2 ⟨.inr (by decide), fun c hc => .inl (htaken c hc)⟩
        · cases h
  | year =>
      rw [readings] at h
      split_ifs at h with hyear
      · rw [Bool.and_eq_true, decide_eq_true_eq, List.all_eq_true] at hyear
        cases List.mem_singleton.1 h
        exact ⟨s.take 4, (List.take_append_drop 4 s).symm, hyear⟩
      · cases h
  | hour =>
      refine hdigits (hnumber (fun _ => rfl) (.or ?_ (.and ?_ fun _ => id)) (fun _ => id) h)
      · exact onDigits_between 2 2 0 3 (by decide) (by decide)
      · exact fun _ => isDigit_of_between (by decide)
  | hourOfHalf => exact hdigits (hnumber (fun _ => rfl) onDigits_upToTwelve hone h)
  | minute =>
      exact hdigits (hnumber (fun _ => rfl)
        (.and (fun _ => isDigit_of_between (by decide)) fun _ => id) (fun _ => id) h)
  | second =>
      refine hdigits (hnumber (fun _ => rfl) (.or ?_ (.and ?_ fun _ => id)) (fun _ => id) h)
      · exact onDigits_between 6 6 0 1 (by decide) (by decide)
      · exact fun _ => isDigit_of_between (by decide)
  | half | monthName | monthShort =>
      rw [readings] at h
      split at h
      · next hname =>
          cases List.mem_singleton.1 h
          exact exists_of_name? hname
      · cases h
  | mark c =>
      cases s with
      | nil => cases h
      | cons d s =>
          dsimp only [readings] at h
          split_ifs at h with hd
          · cases List.mem_singleton.1 h
            exact ⟨[c], by rw [hd]; rfl, rfl⟩
          · cases h
  | blank =>
      cases s with
      | nil => cases h
      | cons c s =>
          dsimp only [readings] at h
          split_ifs at h with hc
          · cases List.mem_singleton.1 h
            refine ⟨c :: s.takeWhile isBlank, ?_, ?_⟩
            · rw [List.cons_append, List.takeWhile_append_dropWhile]
            · exact List.forall_mem_cons.2 ⟨hc, List.all_eq_true.1 List.all_takeWhile⟩
          · cases h

/-- The part with the name of the month in full. -/
def inFull : Part → Part
  | monthShort => monthName
  | part => part

/-- The name of May is its own abbreviation. -/
theorem writes_inFull (h : t.date.month = 5) : part.inFull.Writes t s ↔ part.Writes t s := by
  cases part with
  | monthShort =>
      change s.map Char.toLower = nameOfMonth t.date.month ↔
        s.map Char.toLower = (nameOfMonth t.date.month).take 3
      rw [h]
      exact Iff.rfl
  | _ => exact Iff.rfl

theorem mem_map_inFull_iff {layout : Layout} (hpart : part.inFull = part)
    (hname : part ≠ monthName) : part ∈ layout.map inFull ↔ part ∈ layout := by
  constructor
  · intro h
    obtain ⟨q, hq, heq⟩ := List.mem_map.1 h
    cases q with
    | monthShort => exact absurd heq.symm hname
    | _ => exact heq ▸ hq
  · intro h
    exact List.mem_map.2 ⟨part, h, hpart⟩

end Part

section Spelled

variable {P Q : Part → List Char → Prop} {layout : Layout} {s : List Char}

theorem Spelled.imp (h : ∀ part s, P part s → Q part s) (hs : Spelled P layout s) :
    Spelled Q layout s := by
  induction hs with
  | nil => exact .nil
  | cons head _ ih => exact .cons (h _ _ head) ih

theorem spelled_map_iff (g : Part → Part) :
    Spelled P (layout.map g) s ↔ Spelled (fun part => P (g part)) layout s := by
  induction layout generalizing s with
  | nil => exact ⟨fun h => by cases h; exact .nil, fun h => by cases h; exact .nil⟩
  | cons part layout ih => simp only [List.map_cons, spelled_cons_iff, ih]

/-- What is read in a layout consists of what its parts may take. -/
theorem spelled_of_readParts? {f g : Fields} (h : readParts? layout f s = some g) :
    Spelled Part.Takes layout s := by
  induction layout generalizing f s with
  | nil =>
      rw [readParts?] at h
      split_ifs at h with hs
      rw [List.isEmpty_iff.1 hs]
      exact .nil
  | cons part layout ih =>
      obtain ⟨⟨f', rest⟩, hmem, hrest⟩ := List.exists_of_findSome?_eq_some h
      obtain ⟨taken, rfl, htaken⟩ := part.takes_of_mem_readings hmem
      exact .cons htaken (ih hrest)

end Spelled

/-- The marks that the texts in a layout may have. -/
def allMarks : Layout → List (List Char)
  | [] => [[]]
  | part :: layout => part.allMarks.flatMap fun front => (allMarks layout).map (front ++ ·)

variable {t : Timestamp} {layout other : Layout} {s : List Char}

theorem marks_of_spelled (h : Spelled Part.Takes layout s) : marks s ∈ allMarks layout := by
  induction h with
  | nil => exact List.mem_singleton.2 rfl
  | cons head _ ih =>
      rw [marks_append, allMarks, List.mem_flatMap]
      exact ⟨_, Part.marks_of_takes head, List.mem_map.2 ⟨_, ih, rfl⟩⟩

theorem marks_of_written (h : Written t layout s) :
    marks s = layout.flatMap (Part.marksIn t.date.month t.time.isAfternoon) := by
  induction h with
  | nil => rfl
  | cons head _ ih => rw [marks_append, Part.marks_of_writes head, ih, List.flatMap_cons]

/-- The year in front in one layout, the month in the other. -/
def StartsApart (yearly monthly : Layout) : Prop :=
  yearly.head? = some .year ∧ monthly.take 2 = [.month, .mark '/']

instance (yearly monthly : Layout) : Decidable (StartsApart yearly monthly) :=
  inferInstanceAs (Decidable (_ ∧ _))

/-- Four digits are no month. -/
theorem not_spelled_of_startsApart (h : StartsApart layout other)
    (hs : Spelled Part.Takes layout s) : ¬Spelled Part.Takes other s := by
  obtain ⟨hyearly, hmonthly⟩ := h
  have hlayout : layout = .year :: layout.tail := List.eq_cons_of_mem_head? hyearly
  have hlong : other = .month :: .mark '/' :: other.drop 2 :=
    (List.take_append_drop 2 other).symm.trans (congrArg (· ++ other.drop 2) hmonthly)
  intro hother
  rw [hlayout] at hs
  rw [hlong] at hother
  obtain ⟨year, rest, htext, ⟨hfour, hdigits⟩, -⟩ := spelled_cons_iff.1 hs
  obtain ⟨month, tail, htext', ⟨htwo, -⟩, htail⟩ := spelled_cons_iff.1 hother
  obtain ⟨slash, tail', rfl, rfl, -⟩ := spelled_cons_iff.1 htail
  have hshort : (month ++ ['/']).length ≤ year.length := by
    rw [List.length_append, hfour]
    exact Nat.le_succ_of_le (Nat.succ_le_succ htwo)
  have hfront : month ++ ['/'] <+: year :=
    List.prefix_of_prefix_length_le ⟨tail', by rw [List.append_assoc, htext']⟩
      ⟨rest, htext.symm⟩ hshort
  have hdigit := hdigits '/' (hfront.subset (List.mem_append_right _ List.mem_cons_self))
  exact absurd hdigit (by decide)

/-- Layouts that are the same in a month. -/
def SameIn (n : Nat) (layout other : Layout) : Prop :=
  layout = other ∨ n = 5 ∧ layout.map Part.inFull = other.map Part.inFull

instance (n : Nat) (layout other : Layout) : Decidable (SameIn n layout other) :=
  inferInstanceAs (Decidable (_ ∨ _))

/-- Two layouts with the same marks agree in that month or start apart: this is checked for every
two layouts, every month and both halves of the day. -/
theorem sameIn_of_marks : ∀ layout ∈ layouts, ∀ other ∈ layouts, ∀ n ≤ 12, 1 ≤ n → ∀ afternoon,
    layout.flatMap (Part.marksIn n afternoon) ∈ allMarks other →
      SameIn n layout other ∨ StartsApart layout other ∨ StartsApart other layout := by
  decide +kernel

theorem written_of_sameIn (h : SameIn t.date.month layout other) (hs : Written t layout s) :
    Written t other s := by
  rcases h with rfl | ⟨hmay, heq⟩
  · exact hs
  · have hfull : Spelled (fun part => part.inFull.Writes t) layout s :=
      hs.imp fun _ _ => (Part.writes_inFull hmay).2
    rw [← spelled_map_iff, heq, spelled_map_iff] at hfull
    exact hfull.imp fun _ _ => (Part.writes_inFull hmay).1

theorem resolves_of_sameIn {n : Nat} (h : SameIn n layout other) (ht : Resolves layout t) :
    Resolves other t := by
  have hmem : ∀ part : Part, part.inFull = part → part ≠ .monthName →
      (part ∈ layout ↔ part ∈ other) := by
    intro part hpart hname
    rcases h with rfl | ⟨-, heq⟩
    · exact Iff.rfl
    · rw [← Part.mem_map_inFull_iff hpart hname, heq, Part.mem_map_inFull_iff hpart hname]
  constructor
  case micro => exact ht.micro
  case second => exact fun hsecond => ht.second (hsecond ∘ (hmem .second rfl (by decide)).1)
  case minute => exact fun hminute => ht.minute (hminute ∘ (hmem .minute rfl (by decide)).1)
  case hour =>
    exact fun hhour hhalf => ht.hour (hhour ∘ (hmem .hour rfl (by decide)).1)
      (hhalf ∘ (hmem .hourOfHalf rfl (by decide)).1)

/-- Whatever layout reads a text that was written in a layout reads the timestamp that was
written. -/
theorem eq_of_readLayout? (hlayout : layout ∈ layouts) (hother : other ∈ layouts)
    (ht : Resolves layout t) (hs : Written t layout s) {t' : Timestamp}
    (hread : readLayout? other s = some t') : t' = t := by
  obtain ⟨f, hf, -⟩ := Option.bind_eq_some_iff.1 hread
  have htaken : Spelled Part.Takes layout s := hs.imp fun _ _ => Part.takes_of_writes
  have hspelled := spelled_of_readParts? hf
  have hmarks := marks_of_spelled hspelled
  rw [marks_of_written hs] at hmarks
  rcases sameIn_of_marks _ hlayout _ hother _ t.date.month_le t.date.one_le_month _ hmarks with
    hsame | hapart | hapart
  · rw [readLayout?_of_written hother (resolves_of_sameIn hsame ht) (written_of_sameIn hsame hs)]
      at hread
    exact (Option.some.inj hread).symm
  · exact absurd hspelled (not_spelled_of_startsApart hapart htaken)
  · exact absurd htaken (not_spelled_of_startsApart hapart hspelled)

/-- No layout is in the way of another one. -/
theorem readLayouts?_of_written (hlayout : layout ∈ layouts) (ht : Resolves layout t)
    (hs : Written t layout s) : readLayouts? s = some t :=
  findSome?_eq_some_of_forall hlayout (readLayout?_of_written hlayout ht hs) fun _ hother _ =>
    eq_of_readLayout? hlayout hother ht hs

end TableQuery.Calendar
