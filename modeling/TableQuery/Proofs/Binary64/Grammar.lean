import Mathlib.Data.List.Basic
import Mathlib.Tactic.SplitIfs
import TableQuery.Binary64.Reader
import TableQuery.Proofs.Text.Blank

/-!
# The grammar of numbers

A number has a sign or none, then digits with a point among them or not, and behind them an exponent
or nothing; or it has its whole digits in groups of three behind commas and no exponent. The digits
may be those of any script. The readers accept these texts and no others, and they find the digits
on both sides of the point and the exponent.
-/

namespace TableQuery.Binary64

open TableQuery.Text

/-- All characters are digits, and there is one. -/
structure IsRun (s : List Char) : Prop where
  ne_nil : s ≠ []
  digits : ∀ c ∈ s, isDigit c = true

/-- A sign or nothing, and whether it is a minus. -/
inductive IsSign : List Char → Bool → Prop
  | none : IsSign [] false
  | plus : IsSign ['+'] false
  | minus : IsSign ['-'] true

/-- An exponent behind its mark or nothing, and its value. -/
inductive IsExponent : List Char → Int → Prop
  | none : IsExponent [] 0
  | marked {mark : Char} {sign ds : List Char} {negative : Bool} (hmark : mark = 'e' ∨ mark = 'E')
      (hsign : IsSign sign negative) (hds : IsRun ds) : IsExponent (mark :: (sign ++ ds))
        (if negative then -(digitsValue ds : Int) else digitsValue ds)

/-- Digits, with a point in front of them, among them, behind them or nowhere, and an exponent: the
digits on both sides of the point and the value of the exponent. -/
inductive IsPlain : List Char → List Char → List Char → Int → Prop
  | whole {whole tail : List Char} {e : Int} (hwhole : IsRun whole) (htail : IsExponent tail e) :
      IsPlain (whole ++ tail) whole [] e
  | point {whole fraction tail : List Char} {e : Int} (hwhole : IsRun whole)
      (hfraction : ∀ c ∈ fraction, isDigit c = true) (htail : IsExponent tail e) :
      IsPlain (whole ++ '.' :: (fraction ++ tail)) whole fraction e
  | fraction {fraction tail : List Char} {e : Int} (hfraction : IsRun fraction)
      (htail : IsExponent tail e) : IsPlain ('.' :: (fraction ++ tail)) [] fraction e

/-- A point and digits or nothing, and these digits. -/
inductive IsFraction : List Char → List Char → Prop
  | none : IsFraction [] []
  | point {fraction : List Char} (hfraction : IsRun fraction) :
      IsFraction ('.' :: fraction) fraction

/-- Three digits. -/
structure IsTriple (s : List Char) : Prop where
  length : s.length = 3
  digits : ∀ c ∈ s, isDigit c = true

/-- One to three digits, groups of three digits behind commas, and a fraction or nothing: the digits
on both sides of the point. -/
inductive IsGrouping : List Char → List Char → List Char → Prop
  | mk {lead tail fraction : List Char} {groups : List (List Char)} (hlead : IsRun lead)
      (hlength : lead.length ≤ 3) (hne : groups ≠ []) (hgroups : ∀ group ∈ groups, IsTriple group)
      (htail : IsFraction tail fraction) :
      IsGrouping (lead ++ (groups.flatMap (',' :: ·) ++ tail)) (lead ++ groups.flatten) fraction

/-- A number without its sign: plain, or with its whole digits in groups. -/
inductive IsUnsigned : List Char → List Char → List Char → Int → Prop
  | plain {s whole fraction : List Char} {e : Int} (h : IsPlain s whole fraction e) :
      IsUnsigned s whole fraction e
  | grouped {s whole fraction : List Char} (h : IsGrouping s whole fraction) :
      IsUnsigned s whole fraction 0

/-- A number: whether it is negative, its digits without the point and the commas as an integer, and
the power of ten that this integer is multiplied by. -/
inductive IsNumber : List Char → Bool → Nat → Int → Prop
  | mk {sign body whole fraction : List Char} {negative : Bool} {e : Int}
      (hsign : IsSign sign negative) (hbody : IsUnsigned body whole fraction e) :
      IsNumber (sign ++ body) negative (digitsValue (whole ++ fraction)) (e - fraction.length)

section Signs

variable {s sign body : List Char} {negative : Bool}

theorem exists_isSign (s : List Char) :
    ∃ sign, IsSign sign (splitSign s).1 ∧ s = sign ++ (splitSign s).2 := by
  rw [splitSign.eq_def]
  split
  · exact ⟨_, .plus, rfl⟩
  · exact ⟨_, .minus, rfl⟩
  · exact ⟨_, .none, rfl⟩

theorem splitSign_append (h : IsSign sign negative) (hbody : ∀ c ∈ body.head?, c ≠ '+' ∧ c ≠ '-') :
    splitSign (sign ++ body) = (negative, body) := by
  cases h with
  | none =>
      rw [List.nil_append, splitSign.eq_def]
      split
      · exact absurd rfl (hbody '+' rfl).1
      · exact absurd rfl (hbody '-' rfl).2
      · rfl
  | plus => rfl
  | minus => rfl

/-- A digit is no sign. -/
theorem ne_sign_of_isDigit {c : Char} (h : isDigit c = true) : c ≠ '+' ∧ c ≠ '-' := by
  constructor <;> rintro rfl <;> exact absurd h (by decide)

theorem IsRun.exists_eq_cons (h : IsRun s) : ∃ c rest, s = c :: rest ∧ isDigit c = true := by
  obtain ⟨c, rest, rfl⟩ := List.exists_cons_of_ne_nil h.ne_nil
  exact ⟨c, rest, rfl, h.digits c List.mem_cons_self⟩

/-- A text that starts with a digit or a point starts with no sign. -/
theorem ne_sign_of_mem_head? {rest : List Char} (h : IsRun s) :
    ∀ c ∈ (s ++ rest).head?, c ≠ '+' ∧ c ≠ '-' := by
  obtain ⟨c, t, rfl, hc⟩ := h.exists_eq_cons
  rintro _ ⟨⟩
  exact ne_sign_of_isDigit hc

theorem isRun_iff : (!s.isEmpty && s.all isDigit) = true ↔ IsRun s := by
  rw [Bool.and_eq_true, Bool.not_eq_true', List.isEmpty_eq_false_iff, List.all_eq_true]
  exact ⟨fun h => ⟨h.1, h.2⟩, fun h => ⟨h.ne_nil, h.digits⟩⟩

end Signs

section Exponents

variable {s : List Char} {e : Int}

theorem exponent?_eq_some_iff : exponent? s = some e ↔ ∃ sign ds negative, IsSign sign negative ∧
    IsRun ds ∧ s = sign ++ ds ∧
      e = if negative then -(digitsValue ds : Int) else digitsValue ds := by
  constructor
  · intro h
    obtain ⟨sign, hsign, hs⟩ := exists_isSign s
    rw [exponent?] at h
    dsimp only at h
    by_cases hrun : (!(splitSign s).2.isEmpty && (splitSign s).2.all isDigit) = true
    · rw [if_pos hrun, Option.some.injEq] at h
      exact ⟨sign, _, _, hsign, isRun_iff.1 hrun, hs, h.symm⟩
    · rw [if_neg hrun] at h
      cases h
  · rintro ⟨sign, ds, negative, hsign, hds, rfl, rfl⟩
    have hsplit : splitSign (sign ++ ds) = (negative, ds) := by
      have hhead : ∀ c ∈ (ds ++ []).head?, c ≠ '+' ∧ c ≠ '-' := ne_sign_of_mem_head? hds
      rw [List.append_nil] at hhead
      exact splitSign_append hsign hhead
    simp only [exponent?, hsplit]
    rw [if_pos (isRun_iff.2 hds)]

theorem tailExponent?_eq_some_iff : tailExponent? s = some e ↔ IsExponent s e := by
  constructor
  · intro h
    cases s with
    | nil =>
        cases h
        exact .none
    | cons c s =>
        rw [tailExponent?] at h
        split_ifs at h with hmark
        obtain ⟨sign, ds, negative, hsign, hds, rfl, rfl⟩ := exponent?_eq_some_iff.1 h
        exact .marked (by simpa using hmark) hsign hds
  · intro h
    cases h with
    | none => rfl
    | marked hmark hsign hds =>
        rw [tailExponent?, if_pos (by simpa using hmark)]
        exact exponent?_eq_some_iff.2 ⟨_, _, _, hsign, hds, rfl, rfl⟩

end Exponents

section Plain

variable {s whole fraction tail rest : List Char} {e : Int}

theorem IsExponent.head (h : IsExponent tail e) :
    ∀ c ∈ tail.head?, isDigit c = false ∧ c ≠ '.' := by
  cases h with
  | none => simp
  | marked hmark =>
      rintro c ⟨⟩
      rcases hmark with rfl | rfl <;> decide

theorem isPlain_of_decimalParts? (h : decimalParts? s = some (whole, fraction, e)) :
    IsPlain s whole fraction e := by
  have hs := List.takeWhile_append_dropWhile (p := isDigit) (l := s)
  have hdigits : ∀ c ∈ s.takeWhile isDigit, isDigit c = true :=
    List.all_eq_true.1 List.all_takeWhile
  rw [decimalParts?] at h
  generalize s.takeWhile isDigit = lead at hs hdigits h
  dsimp only at h
  split at h
  · next rest hrest =>
      have hrest' := List.takeWhile_append_dropWhile (p := isDigit) (l := rest)
      have hfraction : ∀ c ∈ rest.takeWhile isDigit, isDigit c = true :=
        List.all_eq_true.1 List.all_takeWhile
      generalize rest.takeWhile isDigit = ds at hrest' hfraction h
      split_ifs at h with hempty
      obtain ⟨x, hx, hparts⟩ := Option.map_eq_some_iff.1 h
      cases hparts
      have htail := tailExponent?_eq_some_iff.1 hx
      rw [← hs, hrest, ← hrest']
      rw [Bool.and_eq_true, List.isEmpty_iff, List.isEmpty_iff, not_and] at hempty
      -- Without a digit in front of the point there is one behind it.
      by_cases hwhole : whole = []
      · rw [hwhole]
        exact .fraction ⟨hempty hwhole, hfraction⟩ htail
      · exact .point ⟨hwhole, hdigits⟩ hfraction htail
  · split_ifs at h with hempty
    obtain ⟨x, hx, hparts⟩ := Option.map_eq_some_iff.1 h
    cases hparts
    rw [← hs]
    exact .whole ⟨fun hnil => hempty (List.isEmpty_iff.2 hnil), hdigits⟩
      (tailExponent?_eq_some_iff.1 hx)

theorem IsPlain.decimalParts?_eq (h : IsPlain s whole fraction e) :
    decimalParts? s = some (whole, fraction, e) := by
  have hpoint : ∀ (rest : List Char), ∀ c ∈ ('.' :: rest).head?, isDigit c = false := by
    rintro rest _ ⟨⟩
    decide
  cases h with
  | whole hwhole htail =>
      have htake := takeWhile_append_of_head hwhole.digits fun c hc => (htail.head c hc).1
      have hdrop := dropWhile_append_of_head hwhole.digits fun c hc => (htail.head c hc).1
      have hempty : ¬whole.isEmpty = true := fun h => hwhole.ne_nil (List.isEmpty_iff.1 h)
      rw [decimalParts?, htake, hdrop]
      dsimp only
      split
      · exact absurd rfl (htail.head '.' rfl).2
      · rw [if_neg hempty, tailExponent?_eq_some_iff.2 htail]
        rfl
  | @point _ _ tail _ hwhole hfraction htail =>
      have htake := takeWhile_append_of_head hwhole.digits (hpoint (fraction ++ tail))
      have hdrop := dropWhile_append_of_head hwhole.digits (hpoint (fraction ++ tail))
      have htake' := takeWhile_append_of_head hfraction fun c hc => (htail.head c hc).1
      have hdrop' := dropWhile_append_of_head hfraction fun c hc => (htail.head c hc).1
      have hempty : whole.isEmpty = false := List.isEmpty_eq_false_iff.2 hwhole.ne_nil
      simp only [decimalParts?, htake, hdrop, htake', hdrop', hempty, Bool.false_and,
        Bool.false_eq_true, if_false, tailExponent?_eq_some_iff.2 htail, Option.map_some]
  | @fraction _ tail _ hfraction htail =>
      have hneg : ¬isDigit '.' = true := by decide
      have htake := List.takeWhile_cons_of_neg (l := fraction ++ tail) hneg
      have hdrop := List.dropWhile_cons_of_neg (l := fraction ++ tail) hneg
      have htake' := takeWhile_append_of_head hfraction.digits fun c hc => (htail.head c hc).1
      have hdrop' := dropWhile_append_of_head hfraction.digits fun c hc => (htail.head c hc).1
      have hempty : fraction.isEmpty = false := List.isEmpty_eq_false_iff.2 hfraction.ne_nil
      simp only [decimalParts?, htake, hdrop, htake', hdrop', hempty, Bool.and_false,
        Bool.false_eq_true, if_false, tailExponent?_eq_some_iff.2 htail, Option.map_some]

theorem decimalParts?_eq_some_iff :
    decimalParts? s = some (whole, fraction, e) ↔ IsPlain s whole fraction e :=
  ⟨isPlain_of_decimalParts?, IsPlain.decimalParts?_eq⟩

end Plain

section Groups

variable {s body whole fraction tail : List Char} {groups : List (List Char)}

theorem isGroups_iff : isGroups s = true ↔ ∃ groups : List (List Char),
    (∀ group ∈ groups, IsTriple group) ∧ s = groups.flatMap (',' :: ·) := by
  constructor
  · intro h
    fun_induction isGroups s with
    | case1 => exact ⟨[], by simp, rfl⟩
    | case2 a b c s ih =>
        simp only [Bool.and_eq_true] at h
        obtain ⟨groups, hgroups, rfl⟩ := ih h.2
        refine ⟨[a, b, c] :: groups, ?_, rfl⟩
        rw [List.forall_mem_cons]
        exact ⟨⟨rfl, by simp [h.1]⟩, hgroups⟩
    | case3 => cases h
  · rintro ⟨groups, hgroups, rfl⟩
    induction groups with
    | nil => rfl
    | cons group groups ih =>
        rw [List.forall_mem_cons] at hgroups
        obtain ⟨⟨hlength, hdigits⟩, hrest⟩ := hgroups
        obtain ⟨a, b, c, rfl⟩ := List.length_eq_three.1 hlength
        rw [List.flatMap_cons, List.cons_append, List.cons_append, List.cons_append,
          List.cons_append, List.nil_append, isGroups, ih hrest]
        simpa [and_assoc] using hdigits

theorem mem_flatMap_groups (h : ∀ group ∈ groups, IsTriple group) {c : Char}
    (hc : c ∈ groups.flatMap (',' :: ·)) : c = ',' ∨ isDigit c = true := by
  obtain ⟨group, hgroup, hc⟩ := List.mem_flatMap.1 hc
  exact (List.mem_cons.1 hc).imp_right ((h group hgroup).digits c)

theorem IsGrouping.splitSign_append {sign : List Char} {negative : Bool}
    (hsign : IsSign sign negative) (h : IsGrouping body whole fraction) :
    splitSign (sign ++ body) = (negative, body) := by
  cases h with
  | mk hlead => exact Binary64.splitSign_append hsign (ne_sign_of_mem_head? hlead)

theorem IsFraction.head (h : IsFraction tail fraction) : ∀ c ∈ tail.head?, c = '.' := by
  cases h with
  | none => simp
  | point =>
      rintro c ⟨⟩
      rfl

/-- Groups begin with a comma. -/
theorem head_flatMap_groups (hne : groups ≠ []) :
    ∃ rest, groups.flatMap (',' :: ·) = ',' :: rest := by
  obtain ⟨group, groups, rfl⟩ := List.exists_cons_of_ne_nil hne
  exact ⟨_, List.flatMap_cons⟩

theorem exists_isGrouping (h : isGrouped s = true) :
    ∃ whole fraction, IsGrouping (splitSign s).2 whole fraction := by
  rw [isGrouped] at h
  generalize (splitSign s).2 = body at h ⊢
  have hbody := List.takeWhile_append_dropWhile (p := isDigit) (l := body)
  have hlead : ∀ c ∈ body.takeWhile isDigit, isDigit c = true :=
    List.all_eq_true.1 List.all_takeWhile
  generalize body.takeWhile isDigit = lead, body.dropWhile isDigit = rest at hbody hlead h
  have hrest := List.takeWhile_append_dropWhile (p := (· != '.')) (l := rest)
  have hpoint := List.head?_dropWhile_not (· != '.') rest
  generalize rest.takeWhile (· != '.') = text, rest.dropWhile (· != '.') = tail at hrest hpoint h
  simp only [Bool.and_eq_true, decide_eq_true_eq, Bool.not_eq_true'] at h
  obtain ⟨⟨⟨⟨hone, hthree⟩, hempty⟩, htext⟩, htail⟩ := h
  obtain ⟨groups, hgroups, rfl⟩ := isGroups_iff.1 htext
  have hne : groups ≠ [] := by
    rintro rfl
    cases hempty
  have hrun : IsRun lead := ⟨List.length_pos_iff.1 hone, hlead⟩
  rw [← hbody, ← hrest]
  cases tail with
  | nil => exact ⟨_, _, .mk hrun hthree hne hgroups .none⟩
  | cons c fraction =>
      obtain rfl : c = '.' := by simpa using hpoint
      exact ⟨_, _, .mk hrun hthree hne hgroups (.point (isRun_iff.1 (by simpa using htail)))⟩

theorem IsGrouping.isGrouped_append {sign : List Char} {negative : Bool}
    (hsign : IsSign sign negative) (h : IsGrouping body whole fraction) :
    isGrouped (sign ++ body) = true := by
  have hsplit := h.splitSign_append hsign
  cases h with
  | @mk lead tail fraction groups hlead hlength hne hgroups htail =>
      obtain ⟨rest, hrest⟩ := head_flatMap_groups hne
      have hcomma : ∀ c ∈ (groups.flatMap (',' :: ·) ++ tail).head?, isDigit c = false := by
        rw [hrest]
        rintro c ⟨⟩
        decide
      have hinner : ∀ c ∈ groups.flatMap (',' :: ·), (c != '.') = true := by
        intro c hc
        rw [bne_iff_ne]
        rintro rfl
        exact absurd (mem_flatMap_groups hgroups hc) (by decide)
      have hpoint : ∀ c ∈ tail.head?, (c != '.') = false := fun c hc => by simp [htail.head c hc]
      have hlead' : decide (1 ≤ lead.length) = true :=
        decide_eq_true (List.length_pos_iff.2 hlead.ne_nil)
      have hnonempty : (groups.flatMap (',' :: ·)).isEmpty = false := by
        rw [hrest]
        rfl
      simp only [isGrouped, hsplit, takeWhile_append_of_head hlead.digits hcomma,
        dropWhile_append_of_head hlead.digits hcomma, takeWhile_append_of_head hinner hpoint,
        dropWhile_append_of_head hinner hpoint, hlead', decide_eq_true hlength, hnonempty,
        isGroups_iff.2 ⟨groups, hgroups, rfl⟩, Bool.not_false, Bool.and_self, Bool.true_and]
      cases htail with
      | none => rfl
      | point hfraction => exact isRun_iff.2 hfraction

theorem IsGrouping.comma_mem (h : IsGrouping body whole fraction) : ',' ∈ body := by
  cases h with
  | mk _ _ hne _ _ =>
      obtain ⟨rest, hrest⟩ := head_flatMap_groups hne
      rw [hrest]
      exact List.mem_append_right _ (List.mem_append_left _ List.mem_cons_self)

theorem filter_comma_of_digits (h : ∀ c ∈ s, isDigit c = true) : s.filter (· != ',') = s := by
  rw [List.filter_eq_self]
  intro c hc
  rw [bne_iff_ne]
  rintro rfl
  exact absurd (h ',' hc) (by decide)

theorem filter_comma_flatMap_groups (h : ∀ group ∈ groups, IsTriple group) :
    (groups.flatMap (',' :: ·)).filter (· != ',') = groups.flatten := by
  induction groups with
  | nil => rfl
  | cons group groups ih =>
      rw [List.forall_mem_cons] at h
      rw [List.flatMap_cons, List.filter_append, ih h.2, List.flatten_cons,
        List.filter_cons_of_neg (by decide), filter_comma_of_digits h.1.digits]

/-- Without its commas a grouping is a plain number of the same digits. -/
theorem IsGrouping.isPlain_filter (h : IsGrouping body whole fraction) :
    IsPlain (body.filter (· != ',')) whole fraction 0 := by
  cases h with
  | @mk lead tail fraction groups hlead _ _ hgroups htail =>
      have hwhole : IsRun (lead ++ groups.flatten) := by
        refine ⟨List.append_ne_nil_of_left_ne_nil hlead.ne_nil _, ?_⟩
        rw [List.forall_mem_append]
        refine ⟨hlead.digits, fun c hc => ?_⟩
        obtain ⟨group, hgroup, hc⟩ := List.mem_flatten.1 hc
        exact (hgroups group hgroup).digits c hc
      rw [List.filter_append, List.filter_append, filter_comma_of_digits hlead.digits,
        filter_comma_flatMap_groups hgroups, ← List.append_assoc]
      cases htail with
      | none => exact .whole hwhole .none
      | point hfraction =>
          have hplain := IsPlain.point hwhole hfraction.digits .none
          rw [List.append_nil] at hplain
          rw [List.filter_cons_of_pos (by decide), filter_comma_of_digits hfraction.digits]
          exact hplain

end Groups

section Numbers

variable {s sign body whole fraction : List Char} {negative : Bool} {digits : Nat} {e : Int}

theorem IsRun.comma_notMem (h : IsRun s) : ',' ∉ s :=
  fun hc => absurd (h.digits ',' hc) (by decide)

theorem IsSign.comma_notMem (h : IsSign sign negative) : ',' ∉ sign := by
  cases h <;> decide

theorem IsExponent.comma_notMem (h : IsExponent s e) : ',' ∉ s := by
  cases h with
  | none => simp
  | marked hmark hsign hds =>
      rw [List.mem_cons, List.mem_append, not_or, not_or]
      refine ⟨?_, hsign.comma_notMem, hds.comma_notMem⟩
      rintro rfl
      exact absurd hmark (by decide)

theorem IsPlain.comma_notMem (h : IsPlain s whole fraction e) : ',' ∉ s := by
  cases h with
  | whole hwhole htail => simp [hwhole.comma_notMem, htail.comma_notMem]
  | point hwhole hfraction htail =>
      have hcomma : ',' ∉ fraction := fun hc => absurd (hfraction ',' hc) (by decide)
      simp [hwhole.comma_notMem, hcomma, htail.comma_notMem]
  | fraction hfraction htail => simp [hfraction.comma_notMem, htail.comma_notMem]

theorem IsPlain.splitSign_append (hsign : IsSign sign negative)
    (h : IsPlain body whole fraction e) : splitSign (sign ++ body) = (negative, body) := by
  refine Binary64.splitSign_append hsign ?_
  cases h with
  | whole hwhole _ => exact ne_sign_of_mem_head? hwhole
  | point hwhole _ _ => exact ne_sign_of_mem_head? hwhole
  | fraction _ _ =>
      rintro c ⟨⟩
      decide

theorem IsPlain.isDecimal_append (hsign : IsSign sign negative)
    (h : IsPlain body whole fraction e) : isDecimal (sign ++ body) = true := by
  rw [isDecimal, h.splitSign_append hsign, h.decimalParts?_eq]
  rfl

/-- Only a comma makes groups. -/
theorem isGrouped_eq_false (h : ',' ∉ s) : isGrouped s = false := by
  rw [← Bool.not_eq_true]
  intro hgrouped
  obtain ⟨sign, -, hs⟩ := exists_isSign s
  obtain ⟨whole, fraction, hbody⟩ := exists_isGrouping hgrouped
  rw [hs] at h
  exact h (List.mem_append_right _ hbody.comma_mem)

theorem IsPlain.ungrouped_append (hsign : IsSign sign negative)
    (h : IsPlain body whole fraction e) : ungrouped (sign ++ body) = sign ++ body := by
  have hcomma : ',' ∉ sign ++ body := by
    rw [List.mem_append, not_or]
    exact ⟨hsign.comma_notMem, h.comma_notMem⟩
  rw [ungrouped, isGrouped_eq_false hcomma, if_neg Bool.false_ne_true]

theorem IsGrouping.ungrouped_append (hsign : IsSign sign negative)
    (h : IsGrouping body whole fraction) :
    ungrouped (sign ++ body) = sign ++ body.filter (· != ',') := by
  have hkeep : sign.filter (· != ',') = sign := by
    cases hsign <;> rfl
  rw [ungrouped, if_pos (h.isGrouped_append hsign), List.filter_append, hkeep]

/-- The commas taken away, a number is plain. -/
theorem IsUnsigned.exists_isPlain (hsign : IsSign sign negative)
    (h : IsUnsigned body whole fraction e) :
    ∃ plain, ungrouped (sign ++ body) = sign ++ plain ∧ IsPlain plain whole fraction e := by
  cases h with
  | plain h => exact ⟨body, h.ungrouped_append hsign, h⟩
  | grouped h => exact ⟨_, h.ungrouped_append hsign, h.isPlain_filter⟩

/-- The readers of signs and of plain numbers find the parts of a number, and they find them in
numbers only. -/
theorem isNumber_iff : IsNumber s negative digits e ↔ ∃ whole fraction x,
    decimalParts? (splitSign (ungrouped s)).2 = some (whole, fraction, x) ∧
      (splitSign (ungrouped s)).1 = negative ∧ digitsValue (whole ++ fraction) = digits ∧
        x - fraction.length = e := by
  constructor
  · rintro ⟨hsign, hbody⟩
    -- The commas taken away, both kinds of numbers are read in the same way.
    obtain ⟨plain, hplain, hparts⟩ := hbody.exists_isPlain hsign
    rw [hplain, hparts.splitSign_append hsign]
    exact ⟨_, _, _, decimalParts?_eq_some_iff.2 hparts, rfl, rfl, rfl⟩
  · rintro ⟨whole, fraction, x, hparts, rfl, rfl, rfl⟩
    by_cases hgrouped : isGrouped s = true
    · obtain ⟨sign, hsign, hs⟩ := exists_isSign s
      obtain ⟨whole', fraction', hbody⟩ := exists_isGrouping hgrouped
      have hplain := hbody.isPlain_filter
      have hungrouped := hbody.ungrouped_append hsign
      rw [← hs] at hungrouped
      rw [hungrouped, hplain.splitSign_append hsign] at hparts ⊢
      rw [hplain.decimalParts?_eq] at hparts
      cases hparts
      have hnumber := IsNumber.mk hsign (.grouped hbody)
      rwa [← hs] at hnumber
    · rw [ungrouped, if_neg hgrouped] at hparts ⊢
      obtain ⟨sign, hsign, hs⟩ := exists_isSign s
      have hnumber := IsNumber.mk hsign (.plain (decimalParts?_eq_some_iff.1 hparts))
      rwa [← hs] at hnumber

/-- A text is a number in one way. -/
theorem IsNumber.unique {negative' : Bool} {digits' : Nat} {e' : Int}
    (h : IsNumber s negative digits e) (h' : IsNumber s negative' digits' e') :
    negative = negative' ∧ digits = digits' ∧ e = e' := by
  obtain ⟨whole, fraction, x, hparts, rfl, rfl, rfl⟩ := isNumber_iff.1 h
  obtain ⟨whole', fraction', x', hparts', rfl, rfl, rfl⟩ := isNumber_iff.1 h'
  rw [hparts] at hparts'
  cases hparts'
  exact ⟨rfl, rfl, rfl⟩

theorem decimal?_ungrouped_eq_some_iff {x : Binary64} : decimal? (ungrouped s) = some x ↔
    ∃ negative digits e, IsNumber s negative digits e ∧ ofDecimal negative digits e = x := by
  simp only [isNumber_iff, decimal?, Option.map_eq_some_iff]
  constructor
  · rintro ⟨⟨whole, fraction, e⟩, hparts, rfl⟩
    exact ⟨_, _, _, ⟨whole, fraction, e, hparts, rfl, rfl, rfl⟩, rfl⟩
  · rintro ⟨_, _, _, ⟨whole, fraction, e, hparts, rfl, rfl, rfl⟩, rfl⟩
    exact ⟨_, hparts, rfl⟩

/-- A text is read exactly when it is a number, white space around it taken away, that is rounded
to a finite double. -/
theorem number?_eq_some_iff {text : String} {x : Binary64} : number? text = some x ↔
    ∃ negative digits e, IsNumber (trimChars text) negative digits e ∧
      ofDecimal negative digits e = x ∧ x.isFinite = true := by
  delta number?
  constructor
  · intro h
    cases hread : decimal? (ungrouped (trimChars text)) with
    | none =>
        rw [hread] at h
        cases h
    | some y =>
        rw [hread] at h
        dsimp only at h
        split_ifs at h with hfinite
        cases h
        obtain ⟨negative, digits, e, hnumber, rfl⟩ := decimal?_ungrouped_eq_some_iff.1 hread
        exact ⟨negative, digits, e, hnumber, rfl, hfinite⟩
  · rintro ⟨negative, digits, e, hnumber, rfl, hfinite⟩
    rw [decimal?_ungrouped_eq_some_iff.2 ⟨_, _, _, hnumber, rfl⟩]
    exact if_pos hfinite

end Numbers

end TableQuery.Binary64
