import TableQuery.Proofs.Reading
import TableQuery.Request.Validation

/-!
# Fields of requests

A request is accepted exactly when each of its fields is, and each field is read from the value of
one spelling: the first of its spellings that is present. What stands under a later spelling is not
looked at.
-/

namespace TableQuery

namespace Checked

variable {α β : Type}

theorem under_eq_ok_iff {step : String} {x : Checked α} {a : α} :
    x.under step = .ok a ↔ x = .ok a := by
  cases x <;> simp [under]

theorem both_eq_ok_iff {x : Checked α} {y : Checked β} {a : α} {b : β} :
    x.both y = .ok (a, b) ↔ x = .ok a ∧ y = .ok b := by
  cases x <;> cases y <;> simp [both]

theorem all_eq_ok_iff {check : α → Checked β} {n : Nat} {as : List α} {bs : List β} :
    all check n as = .ok bs ↔ List.Forall₂ (fun a b => check a = .ok b) as bs := by
  induction as generalizing n bs with
  | nil =>
      rw [all, List.forall₂_nil_left_iff, Except.ok.injEq, eq_comm]
  | cons a as ih =>
      rw [all, List.forall₂_cons_left_iff]
      constructor
      · intro h
        split at h
        · next b rest hboth =>
            obtain ⟨hb, hrest⟩ := both_eq_ok_iff.1 hboth
            cases h
            exact ⟨b, rest, under_eq_ok_iff.1 hb, ih.1 hrest, rfl⟩
        · cases h
      · rintro ⟨b, rest, hb, hrest, rfl⟩
        rw [both_eq_ok_iff.2 ⟨under_eq_ok_iff.2 hb, ih.2 hrest⟩]

end Checked

/-- What a field that may be absent or null gives, when other values are read in a way. -/
inductive FieldOf {α : Type} (P : Json → α → Prop) : Option Json → Option α → Prop
  | absent : FieldOf P none none
  | null : FieldOf P (some .null) none
  | value {j : Json} {a : α} (h : P j a) : FieldOf P (some j) (some a)

theorem FieldOf.mono {α : Type} {P Q : Json → α → Prop} (h : ∀ j a, P j a → Q j a)
    {v : Option Json} {a : Option α} (ha : FieldOf P v a) : FieldOf Q v a := by
  cases ha with
  | absent => exact .absent
  | null => exact .null
  | value ha => exact .value (h _ _ ha)

namespace Request

/-- The value of the first spelling that is present. -/
def value? (members : List (String × Json)) (spellings : List String) : Option Json :=
  spellings.findSome? fun s => members.lookup s

section Fields

variable {α : Type} {members : List (String × Json)} {spellings : List String}
  {read : Json → Checked α}

theorem value?_eq_map_spelled? (members : List (String × Json)) (spellings : List String) :
    value? members spellings = (spelled? members spellings).map Prod.snd := by
  induction spellings with
  | nil => rfl
  | cons s spellings ih =>
      rw [value?, spelled?] at *
      rw [List.findSome?_cons, List.findSome?_cons]
      cases members.lookup s with
      | none => exact ih
      | some j => rfl

@[simp] theorem value?_nil : value? members [] = none := rfl

@[simp] theorem value?_cons (s : String) :
    value? members (s :: spellings) = (members.lookup s).or (value? members spellings) := by
  rw [value?, List.findSome?_cons]
  cases members.lookup s <;> rfl

theorem required_eq_ok_iff {a : α} : required members spellings read = .ok a ↔
    ∃ j, value? members spellings = some j ∧ read j = .ok a := by
  rw [required, value?_eq_map_spelled?]
  cases spelled? members spellings with
  | none => simp [Checked.under, Checked.refuse]
  | some found => simp [Checked.under_eq_ok_iff]

theorem optional_eq_ok_iff {fallback a : α} : optional members spellings fallback read = .ok a ↔
    (value? members spellings = none ∧ fallback = a) ∨
      ∃ j, value? members spellings = some j ∧ read j = .ok a := by
  rw [optional, value?_eq_map_spelled?]
  cases spelled? members spellings with
  | none => simp
  | some found => simp [Checked.under_eq_ok_iff]

theorem orNull_eq_ok_iff (hnull : ∀ a, read .null ≠ .ok a) {j : Json} {a : Option α} :
    orNull read j = .ok a ↔ (j = .null ∧ none = a) ∨ ∃ b, read j = .ok b ∧ some b = a := by
  unfold orNull
  split
  · simp [hnull]
  · next hne =>
      have hne : j ≠ .null := hne
      cases read j with
      | error fs => simp [hne]
      | ok b => simp [hne]

theorem optional_orNull_eq_ok_iff (hnull : ∀ a, read .null ≠ .ok a) {a : Option α} :
    optional members spellings none (orNull read) = .ok a ↔
      FieldOf (fun j b => read j = .ok b) (value? members spellings) a := by
  rw [optional_eq_ok_iff]
  constructor
  · rintro (⟨hnone, rfl⟩ | ⟨j, hj, hread⟩)
    · rw [hnone]
      exact .absent
    · rw [hj]
      rcases (orNull_eq_ok_iff hnull).1 hread with ⟨rfl, rfl⟩ | ⟨b, hb, rfl⟩
      · exact .null
      · exact .value hb
  · intro h
    generalize value? members spellings = v at h
    cases h with
    | absent => exact .inl ⟨rfl, rfl⟩
    | null => exact .inr ⟨_, rfl, (orNull_eq_ok_iff hnull).2 (.inl ⟨rfl, rfl⟩)⟩
    | value hb => exact .inr ⟨_, rfl, (orNull_eq_ok_iff hnull).2 (.inr ⟨_, hb, rfl⟩)⟩

theorem readText_eq_ok_iff {j : Json} {s : String} : readText j = .ok s ↔ j = .text s := by
  cases j <;> simp [readText, Checked.refuse]

theorem readArray_eq_ok_iff {j : Json} {as : List α} : readArray read j = .ok as ↔
    ∃ items, j = .array items ∧ List.Forall₂ (fun i a => read i = .ok a) items as := by
  cases j <;> simp [readArray, Checked.refuse, Checked.all_eq_ok_iff]

theorem required_readText_eq_ok_iff {s : String} :
    required members spellings readText = .ok s ↔ value? members spellings = some (.text s) := by
  simp [required_eq_ok_iff, readText_eq_ok_iff]

end Fields

/-- A value is a text. -/
def IsText (j : Json) (s : String) : Prop :=
  j = .text s

/-- A value is an array of texts. -/
def AreTexts (j : Json) (texts : List String) : Prop :=
  ∃ items, j = .array items ∧ List.Forall₂ IsText items texts

/-- The members of an object denote a join. -/
structure JoinReads (members : List (String × Json)) (j : JoinSpec) : Prop where
  table : members.lookup "table" = some (.text j.table)
  leftColumn :
    (members.lookup "leftColumn").or (members.lookup "left_column") = some (.text j.leftColumn)
  rightColumn :
    (members.lookup "rightColumn").or (members.lookup "right_column") = some (.text j.rightColumn)

/-- A value is an object that denotes a join. -/
def IsJoin (v : Json) (j : JoinSpec) : Prop :=
  ∃ members, v = .object members ∧ JoinReads members j

/-- A field of joins, which are none when it is absent. -/
inductive JoinsOf : Option Json → List JoinSpec → Prop
  | absent : JoinsOf none []
  | array {items : List Json} {joins : List JoinSpec} (h : List.Forall₂ IsJoin items joins) :
      JoinsOf (some (.array items)) joins

/-- The members of an object denote a request, with a reader for the integers of texts. -/
structure Reads (readInteger : String → Checked Int) (members : List (String × Json))
    (r : Request) : Prop where
  engine : members.lookup "engine" = some (.text r.engine)
  table : members.lookup "table" = some (.text r.table)
  columns : FieldOf AreTexts (members.lookup "columns") r.columns
  joins : JoinsOf (members.lookup "joins") r.joins
  filter : FieldOf IsText (members.lookup "filter") r.filter
  orderBy : FieldOf IsText ((members.lookup "orderBy").or (members.lookup "order_by")) r.orderBy
  limit : FieldOf (fun j n => IntegerText.countOfJson readInteger j = .ok n)
    (members.lookup "limit") r.limit
  offset : FieldOf (fun j n => IntegerText.countOfJson readInteger j = .ok n)
    (members.lookup "offset") r.offset
  exportSheet : FieldOf IsText ((members.lookup "exportSheetName").or
    ((members.lookup "exportName").or (members.lookup "export_sheet_name"))) r.exportSheet

section Acceptance

variable {readInteger : String → Checked Int} {o : Origin} {members : List (String × Json)}

theorem readJoin_object_eq_ok_iff {j : JoinSpec} :
    readJoin o (.object members) = .ok j ↔ JoinReads members j := by
  have hreads : JoinReads members j ↔
      required members ["table"] readText = .ok j.table ∧
        required members leftColumnSpellings readText = .ok j.leftColumn ∧
          required members rightColumnSpellings readText = .ok j.rightColumn := by
    simp only [required_readText_eq_ok_iff, leftColumnSpellings, rightColumnSpellings, value?_cons,
      value?_nil, Option.or_none]
    exact ⟨fun h => ⟨h.table, h.leftColumn, h.rightColumn⟩, fun h => ⟨h.1, h.2.1, h.2.2⟩⟩
  rw [hreads, readJoin]
  constructor
  · intro h
    split at h
    · next hboth =>
        simp only [Checked.both_eq_ok_iff] at hboth
        cases h
        exact hboth
    · cases h
  · rintro ⟨htable, hleft, hright⟩
    rw [htable, hleft, hright]
    rfl

theorem readJoin_eq_ok_iff {v : Json} {j : JoinSpec} : readJoin o v = .ok j ↔ IsJoin v j := by
  cases v with
  | object members => simp [IsJoin, readJoin_object_eq_ok_iff]
  | null | bool | int | float | text | array => simp [readJoin, Checked.refuse, IsJoin]

theorem optional_readText_eq_ok_iff {spellings : List String} {s : Option String} :
    optional members spellings none (orNull readText) = .ok s ↔
      FieldOf IsText (value? members spellings) s := by
  rw [optional_orNull_eq_ok_iff (by simp [readText, Checked.refuse])]
  simp only [readText_eq_ok_iff]
  rfl

theorem optional_columns_eq_ok_iff {spellings : List String} {columns : Option (List String)} :
    optional members spellings none (orNull (readArray readText)) = .ok columns ↔
      FieldOf AreTexts (value? members spellings) columns := by
  rw [optional_orNull_eq_ok_iff (by simp [readArray, Checked.refuse])]
  simp only [readArray_eq_ok_iff, readText_eq_ok_iff]
  rfl

theorem optional_count_eq_ok_iff {spellings : List String} {n : Option Nat} :
    optional members spellings none (orNull (IntegerText.countOfJson readInteger)) = .ok n ↔
      FieldOf (fun j n => IntegerText.countOfJson readInteger j = .ok n)
        (value? members spellings) n :=
  optional_orNull_eq_ok_iff (by simp [IntegerText.countOfJson, IntegerText.ofJson, Checked.refuse])

theorem optional_joins_eq_ok_iff {spellings : List String} {joins : List JoinSpec} :
    optional members spellings [] (readArray (readJoin o)) = .ok joins ↔
      JoinsOf (value? members spellings) joins := by
  rw [optional_eq_ok_iff]
  simp only [readArray_eq_ok_iff, readJoin_eq_ok_iff]
  constructor
  · rintro (⟨hnone, rfl⟩ | ⟨j, hj, items, rfl, hitems⟩)
    · rw [hnone]
      exact .absent
    · rw [hj]
      exact .array hitems
  · intro h
    generalize value? members spellings = v at h
    cases h with
    | absent => exact .inl ⟨rfl, rfl⟩
    | array hitems => exact .inr ⟨_, rfl, _, rfl, hitems⟩

theorem reads_iff {r : Request} : Reads readInteger members r ↔
    required members ["engine"] readText = .ok r.engine ∧
    required members ["table"] readText = .ok r.table ∧
    optional members ["columns"] none (orNull (readArray readText)) = .ok r.columns ∧
    optional members ["joins"] [] (readArray (readJoin o)) = .ok r.joins ∧
    optional members ["filter"] none (orNull readText) = .ok r.filter ∧
    optional members orderSpellings none (orNull readText) = .ok r.orderBy ∧
    optional members ["limit"] none (orNull (IntegerText.countOfJson readInteger)) = .ok r.limit ∧
    optional members ["offset"] none (orNull (IntegerText.countOfJson readInteger)) = .ok r.offset ∧
    optional members exportSpellings none (orNull readText) = .ok r.exportSheet := by
  simp only [required_readText_eq_ok_iff, optional_columns_eq_ok_iff, optional_joins_eq_ok_iff,
    optional_readText_eq_ok_iff, optional_count_eq_ok_iff, orderSpellings, exportSpellings,
    value?_cons, value?_nil, Option.or_none]
  constructor
  · intro h
    exact ⟨h.engine, h.table, h.columns, h.joins, h.filter, h.orderBy, h.limit, h.offset,
      h.exportSheet⟩
  · rintro ⟨hengine, htable, hcolumns, hjoins, hfilter, horder, hlimit, hoffset, hexport⟩
    exact ⟨hengine, htable, hcolumns, hjoins, hfilter, horder, hlimit, hoffset, hexport⟩

/-- A request is accepted exactly when the members denote it. -/
theorem ofMembers_eq_ok_iff {r : Request} :
    ofMembers readInteger o members = .ok r ↔ Reads readInteger members r := by
  rw [reads_iff (o := o), ofMembers]
  constructor
  · intro h
    split at h
    · next hboth =>
        simp only [Checked.both_eq_ok_iff] at hboth
        cases h
        exact hboth
    · cases h
  · rintro ⟨hengine, htable, hcolumns, hjoins, hfilter, horder, hlimit, hoffset, hexport⟩
    rw [hengine, htable, hcolumns, hjoins, hfilter, horder, hlimit, hoffset, hexport]
    rfl

end Acceptance

section Spellings

variable {members : List (String × Json)} {name other : String}

theorem lookup_putMember_of_ne (h : other ≠ name) (value : Json)
    (members : List (String × Json)) :
    (Json.putMember name value members).lookup other = members.lookup other := by
  induction members with
  | nil => simp [Json.putMember, List.lookup_cons, beq_false_of_ne h]
  | cons m members ih =>
      obtain ⟨n, v⟩ := m
      rw [Json.putMember]
      split
      · next hn => rw [List.lookup_cons, List.lookup_cons, hn, beq_false_of_ne h]
      · rw [List.lookup_cons, List.lookup_cons, ih]

theorem lookup_putMember (name : String) (value : Json) (members : List (String × Json)) :
    (Json.putMember name value members).lookup name = some value := by
  induction members with
  | nil => simp [Json.putMember]
  | cons m members ih =>
      obtain ⟨n, v⟩ := m
      rw [Json.putMember]
      split
      · next hn => rw [List.lookup_cons, hn, beq_self_eq_true]
      · next hn => rw [List.lookup_cons, beq_false_of_ne (Ne.symm hn), ih]

theorem spelled?_putMember_of_not_mem {spellings : List String} (h : name ∉ spellings)
    (value : Json) :
    spelled? (Json.putMember name value members) spellings = spelled? members spellings := by
  induction spellings with
  | nil => rfl
  | cons s spellings ih =>
      rw [List.mem_cons, not_or] at h
      rw [spelled?, spelled?] at *
      rw [List.findSome?_cons, List.findSome?_cons, lookup_putMember_of_ne (Ne.symm h.1), ih h.2]

/-- A spelling stands behind another one that is present. -/
def Overruled (members : List (String × Json)) (spellings : List String) (name : String) : Prop :=
  ∃ before after, spellings = before ++ name :: after ∧
    ∃ s ∈ before, ∃ value, members.lookup s = some value

theorem spelled?_putMember_of_overruled {spellings : List String} (hnodup : spellings.Nodup)
    (h : Overruled members spellings name) (value : Json) :
    spelled? (Json.putMember name value members) spellings = spelled? members spellings := by
  obtain ⟨before, after, rfl, s, hs, found, hfound⟩ := h
  have hname : name ∉ before := fun hmem =>
    (List.nodup_append.1 hnodup).2.2 name hmem name List.mem_cons_self rfl
  have hbefore : spelled? (Json.putMember name value members) before = spelled? members before :=
    spelled?_putMember_of_not_mem hname value
  have hsome : ∃ winner, spelled? members before = some winner := by
    rw [← Option.isSome_iff_exists, spelled?, List.findSome?_isSome_iff]
    exact ⟨s, hs, by rw [hfound]; rfl⟩
  obtain ⟨winner, hwinner⟩ := hsome
  rw [hwinner, spelled?] at hbefore
  rw [spelled?] at hwinner
  rw [spelled?, spelled?, List.findSome?_append, List.findSome?_append, hbefore, hwinner]
  rfl

end Spellings

/-- The spellings of each field of a request. -/
def fieldSpellings : List (List String) :=
  [["engine"], ["table"], ["columns"], ["joins"], ["filter"], orderSpellings, ["limit"], ["offset"],
    exportSpellings]

/-- The spellings of each field of a join. -/
def joinSpellings : List (List String) :=
  [["table"], leftColumnSpellings, rightColumnSpellings]

theorem ofMembers_congr {members members' : List (String × Json)}
    (h : ∀ spellings ∈ fieldSpellings, spelled? members spellings = spelled? members' spellings)
    (readInteger : String → Checked Int) (o : Origin) :
    ofMembers readInteger o members = ofMembers readInteger o members' := by
  simp only [fieldSpellings, List.forall_mem_cons] at h
  obtain ⟨hengine, htable, hcolumns, hjoins, hfilter, horder, hlimit, hoffset, hexport, -⟩ := h
  simp only [ofMembers, required, optional, hengine, htable, hcolumns, hjoins, hfilter, horder,
    hlimit, hoffset, hexport]

theorem readJoin_congr {members members' : List (String × Json)}
    (h : ∀ spellings ∈ joinSpellings, spelled? members spellings = spelled? members' spellings)
    (o : Origin) : readJoin o (.object members) = readJoin o (.object members') := by
  simp only [joinSpellings, List.forall_mem_cons] at h
  obtain ⟨htable, hleft, hright, -⟩ := h
  simp only [readJoin, required, htable, hleft, hright]

/-- No name is a spelling of two fields. -/
structure Apart (fields : List (List String)) : Prop where
  nodup : ∀ spellings ∈ fields, spellings.Nodup
  eq : ∀ a ∈ fields, ∀ b ∈ fields, ∀ name ∈ a, name ∈ b → a = b

theorem apart_fieldSpellings : Apart fieldSpellings :=
  ⟨by decide, by decide⟩

theorem apart_joinSpellings : Apart joinSpellings :=
  ⟨by decide, by decide⟩

theorem Apart.spelled?_putMember {fields : List (List String)} (hapart : Apart fields)
    {members : List (String × Json)} {spellings : List String} (hmem : spellings ∈ fields)
    {name : String} (h : Overruled members spellings name) (value : Json) :
    ∀ others ∈ fields,
      spelled? (Json.putMember name value members) others = spelled? members others := by
  intro others hothers
  by_cases hname : name ∈ others
  · have hspelling : name ∈ spellings := by
      obtain ⟨before, after, rfl, -⟩ := h
      simp
    obtain rfl := hapart.eq spellings hmem others hothers name hspelling hname
    exact spelled?_putMember_of_overruled (hapart.nodup _ hmem) h value
  · exact spelled?_putMember_of_not_mem hname value

/-- What stands under a later spelling has no say. -/
theorem ofMembers_putMember {members : List (String × Json)} {spellings : List String}
    (hmem : spellings ∈ fieldSpellings) {name : String} (h : Overruled members spellings name)
    (readInteger : String → Checked Int) (o : Origin) (value : Json) :
    ofMembers readInteger o (Json.putMember name value members) =
      ofMembers readInteger o members :=
  ofMembers_congr (apart_fieldSpellings.spelled?_putMember hmem h value) readInteger o

/-- Nor has it in a join. -/
theorem readJoin_putMember {members : List (String × Json)} {spellings : List String}
    (hmem : spellings ∈ joinSpellings) {name : String} (h : Overruled members spellings name)
    (o : Origin) (value : Json) :
    readJoin o (.object (Json.putMember name value members)) = readJoin o (.object members) :=
  readJoin_congr (apart_joinSpellings.spelled?_putMember hmem h value) o

theorem isJoin_putMember {members : List (String × Json)} {spellings : List String}
    (hmem : spellings ∈ joinSpellings) {name : String} (h : Overruled members spellings name)
    (value : Json) {j : JoinSpec} (hj : IsJoin (.object members) j) :
    IsJoin (.object (Json.putMember name value members)) j := by
  rw [← readJoin_eq_ok_iff (o := .document)] at hj ⊢
  rw [readJoin_putMember hmem h, hj]

theorem forall₂_isJoin_putMember {before after : List Json} {members : List (String × Json)}
    {spellings : List String} (hmem : spellings ∈ joinSpellings) {name : String}
    (h : Overruled members spellings name) (value : Json) {joins : List JoinSpec}
    (hjoins : List.Forall₂ IsJoin (before ++ .object members :: after) joins) :
    List.Forall₂ IsJoin (before ++ .object (Json.putMember name value members) :: after)
      joins := by
  induction before generalizing joins with
  | nil =>
      cases hjoins with
      | cons hj hrest => exact .cons (isJoin_putMember hmem h value hj) hrest
  | cons v before ih =>
      cases hjoins with
      | cons hv hrest => exact .cons hv (ih hrest)

/-- The joins of a document can be put in another way. -/
theorem Reads.putJoins {readInteger : String → Checked Int} {members : List (String × Json)}
    {r : Request} (h : Reads readInteger members r) {items : List Json}
    (hitems : List.Forall₂ IsJoin items r.joins) :
    Reads readInteger (Json.putMember "joins" (.array items) members) r := by
  have hother : ∀ name, name ≠ "joins" →
      (Json.putMember "joins" (.array items) members).lookup name = members.lookup name :=
    fun name hname => lookup_putMember_of_ne hname _ members
  constructor
  case engine => exact (hother "engine" (by decide)).trans h.engine
  case table => exact (hother "table" (by decide)).trans h.table
  case columns => exact (hother "columns" (by decide)).symm ▸ h.columns
  case joins => exact (lookup_putMember "joins" (.array items) members).symm ▸ .array hitems
  case filter => exact (hother "filter" (by decide)).symm ▸ h.filter
  case orderBy =>
    rw [hother "orderBy" (by decide), hother "order_by" (by decide)]
    exact h.orderBy
  case limit => exact (hother "limit" (by decide)).symm ▸ h.limit
  case offset => exact (hother "offset" (by decide)).symm ▸ h.offset
  case exportSheet =>
    rw [hother "exportSheetName" (by decide), hother "exportName" (by decide),
      hother "export_sheet_name" (by decide)]
    exact h.exportSheet

end Request

end TableQuery
