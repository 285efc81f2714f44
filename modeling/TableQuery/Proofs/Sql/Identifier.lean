import TableQuery.Proofs.Sql.Acceptance
import TableQuery.Proofs.Sql.Name

/-!
# Which texts are identifiers

A text is an identifier when each part between its dots is a word of letters, digits and underscores
that starts with no digit. A line break at the end of a part is overlooked, so a text with one in
front of a dot is an identifier as well. What is read keeps the text, and quoting adds nothing but
the quotes.
-/

namespace TableQuery.Sql

open TableQuery.Text

/-- A text without its double quotes. -/
def unquote (s : String) : String :=
  String.ofList (s.toList.filter (· != '"'))

theorem unquote_append (s t : String) : unquote (s ++ t) = unquote s ++ unquote t := by
  rw [unquote, String.toList_append, List.filter_append, String.ofList_append, unquote, unquote]

theorem unquote_eq_self {s : String} (h : '"' ∉ s.toList) : unquote s = s := by
  have hkeep : ∀ c ∈ s.toList, (c != '"') = true := fun c hc => by
    rw [bne_iff_ne]
    rintro rfl
    exact h hc
  rw [unquote, List.filter_eq_self.2 hkeep, String.ofList_toList]

theorem filter_intercalate {α : Type} (p : α → Bool) (sep : List α) (xss : List (List α)) :
    (List.intercalate sep xss).filter p =
      List.intercalate (sep.filter p) (xss.map (List.filter p)) := by
  induction xss with
  | nil => rfl
  | cons xs xss ih =>
      cases xss with
      | nil => simp
      | cons ys xss =>
          rw [List.intercalate_cons_cons, List.filter_append, List.filter_append, ih]
          simp only [List.map_cons, List.intercalate_cons_cons]

theorem unquote_intercalate (sep : String) (ss : List String) :
    unquote (String.intercalate sep ss) = String.intercalate (unquote sep) (ss.map unquote) := by
  rw [← String.toList_inj, unquote, String.toList_ofList, String.toList_intercalate,
    filter_intercalate, String.toList_intercalate, List.map_map, List.map_map, unquote,
    String.toList_ofList]
  congr 1
  exact List.map_congr_left fun s _ => (String.toList_ofList).symm

/-- A part of letters, digits and underscores that starts with no digit. -/
def IsWord (part : List Char) : Prop :=
  part ≠ [] ∧ (∀ c ∈ part, isAsciiLetter c = true ∨ isAsciiDigit c = true ∨ c = '_') ∧
    ∀ c ∈ part.head?, isAsciiDigit c = false

instance (part : List Char) : Decidable (IsWord part) :=
  @instDecidableAnd (part ≠ []) _ inferInstance
    (@instDecidableAnd _ _ (List.decidableBAll _ part) (Option.decidableForallMem part.head?))

theorem isPartTail_iff {c : Char} :
    isPartTail c = true ↔ isAsciiLetter c = true ∨ isAsciiDigit c = true ∨ c = '_' := by
  rw [isPartTail, Bool.or_eq_true, Bool.or_eq_true, beq_iff_eq, or_assoc]

theorem isAsciiDigit_of_isPartHead {c : Char} (h : isPartHead c = true) : isAsciiDigit c = false := by
  rw [isPartHead, Bool.or_eq_true, beq_iff_eq] at h
  rcases h with h | rfl
  · simp only [isAsciiLetter, Bool.or_eq_true, Bool.and_eq_true, decide_eq_true_eq] at h
    rw [← Bool.not_eq_true, isAsciiDigit, Bool.and_eq_true, decide_eq_true_eq, decide_eq_true_eq]
    omega
  · rfl

theorem isPartHead_iff {c : Char} :
    isPartHead c = true ↔ isPartTail c = true ∧ isAsciiDigit c = false := by
  constructor
  · exact fun h => ⟨isPartTail_of_isPartHead h, isAsciiDigit_of_isPartHead h⟩
  · rintro ⟨htail, hdigit⟩
    simpa [isPartTail, hdigit, isPartHead] using htail

theorem isWord_cons_iff {c : Char} {s : List Char} :
    IsWord (c :: s) ↔ isPartHead c = true ∧ ∀ d ∈ s, isPartTail d = true := by
  simp only [IsWord, ← isPartTail_iff, List.forall_mem_cons, isPartHead_iff, List.head?_cons,
    Option.mem_def, Option.some.injEq, forall_eq', ne_eq, List.cons_ne_nil, not_false_eq_true]
  tauto

/-- Behind the first character of a part come more of a word, and a line break may end them. -/
theorem isPartRest_iff {s : List Char} :
    isPartRest s = true ↔
      ∃ t, (∀ c ∈ t, isPartTail c = true) ∧ (s = t ∨ s = t ++ ['\n']) := by
  constructor
  · intro h
    induction s with
    | nil => exact ⟨[], by simp⟩
    | cons c s ih =>
        rw [isPartRest.eq_def] at h
        split at h
        · next heq => cases heq
        · next heq =>
            cases heq
            exact ⟨[], by simp⟩
        · next heq =>
            cases heq
            rw [Bool.and_eq_true] at h
            obtain ⟨t, ht, heq⟩ := ih h.2
            refine ⟨c :: t, List.forall_mem_cons.2 ⟨h.1, ht⟩, ?_⟩
            rcases heq with rfl | rfl
            · exact .inl rfl
            · exact .inr rfl
  · rintro ⟨t, ht, rfl | rfl⟩
    · exact isPartRest_of_all ht
    · induction t with
      | nil => rfl
      | cons c t ih =>
          rw [List.forall_mem_cons] at ht
          rw [List.cons_append, isPartRest, ht.1, ih ht.2]
          · rfl
          · simp

theorem isPart_iff {part : List Char} :
    isPart part = true ↔ ∃ word, IsWord word ∧ (part = word ∨ part = word ++ ['\n']) := by
  cases part with
  | nil => simp [isPart, IsWord]
  | cons c s =>
      rw [isPart, Bool.and_eq_true, isPartRest_iff]
      constructor
      · rintro ⟨hhead, t, ht, hs⟩
        refine ⟨c :: t, isWord_cons_iff.2 ⟨hhead, ht⟩, ?_⟩
        rcases hs with rfl | rfl
        · exact .inl rfl
        · exact .inr rfl
      · rintro ⟨word, hword, hpart⟩
        cases word with
        | nil => exact absurd rfl hword.1
        | cons d t =>
            obtain ⟨hhead, ht⟩ := isWord_cons_iff.1 hword
            rw [List.cons_append, List.cons.injEq, List.cons.injEq, ← and_or_left] at hpart
            obtain ⟨rfl, hs⟩ := hpart
            exact ⟨hhead, t, ht, hs⟩

namespace Identifier

/-- The parts of a text between its dots, without the white space around the text. -/
def partsOf (value : String) : List (List Char) :=
  cut '.' (trimChars value)

theorem quoted_eq_intercalate (i : Identifier) :
    i.quoted =
      String.intercalate "." (i.parts.map fun part => "\"" ++ String.ofList part ++ "\"") := by
  rw [← String.toList_inj, quoted, String.toList_ofList, String.toList_intercalate,
    List.map_map]
  congr 1
  exact List.map_congr_left fun part _ => by simp [quotePart]

theorem text_eq_intercalate (i : Identifier) :
    i.text = String.intercalate "." (i.parts.map String.ofList) := by
  rw [← String.toList_inj, text, String.toList_ofList, String.toList_intercalate,
    List.map_map]
  congr 1
  simp [Function.comp_def]

/-- The quotes are all that quoting adds. -/
theorem unquote_quoted (i : Identifier) : unquote i.quoted = i.text := by
  have hpart : ∀ part ∈ i.parts,
      unquote ("\"" ++ String.ofList part ++ "\"") = String.ofList part := by
    intro part hpart
    have hquote := quote_not_mem_of_isPart (isPart_of_mem hpart)
    have hself : unquote (String.ofList part) = String.ofList part :=
      unquote_eq_self (by rwa [String.toList_ofList])
    have hempty : unquote "\"" = "" := by decide
    rw [unquote_append, unquote_append, hself, hempty, String.append_empty, String.empty_append]
  rw [quoted_eq_intercalate, unquote_intercalate, List.map_map, text_eq_intercalate]
  congr 1
  exact List.map_congr_left hpart

theorem text_of_read {field value : String} {i : Identifier} (h : read field value = .ok i) :
    i.text = trim value := by
  rw [text, parts_of_read h, intercalate_cut, trim]

theorem isIdentifier_iff_partsOf {value : String} :
    IsIdentifier value ↔
      ∀ part ∈ partsOf value, ∃ word, IsWord word ∧ (part = word ∨ part = word ++ ['\n']) := by
  rw [isIdentifier_iff, List.all_eq_true, partsOf]
  exact forall₂_congr fun part _ => isPart_iff

theorem break_not_mem_of_isWord {part : List Char} (h : IsWord part) : '\n' ∉ part := by
  intro hbreak
  have hc := h.2.1 _ hbreak
  exact absurd hc (by decide)

/-- Every part is a word when the text is an identifier on one line. -/
theorem forall_isWord_iff {value : String} :
    (∀ part ∈ partsOf value, IsWord part) ↔ IsIdentifier value ∧ '\n' ∉ trimChars value := by
  constructor
  · intro h
    refine ⟨isIdentifier_iff_partsOf.2 fun part hpart => ⟨part, h part hpart, .inl rfl⟩, ?_⟩
    intro hbreak
    have hsplit : '\n' = '.' ∨ ∃ part ∈ partsOf value, '\n' ∈ part := mem_cut_or_eq hbreak
    rcases hsplit with hdot | ⟨part, hpart, hbreak⟩
    · exact absurd hdot (by decide)
    · exact break_not_mem_of_isWord (h part hpart) hbreak
  · rintro ⟨h, hbreak⟩ part hpart
    obtain ⟨word, hword, rfl | rfl⟩ := isIdentifier_iff_partsOf.1 h part hpart
    · exact hword
    · have hmem : '\n' ∈ word ++ ['\n'] := by simp
      exact absurd (mem_of_mem_cut hpart hmem) hbreak

/-- How a text is read as an identifier. -/
structure ReadsExactly (field value : String) : Prop where
  /-- A part is a word, and a line break may end it. -/
  accepted : (∃ i, read field value = .ok i) ↔
    ∀ part ∈ partsOf value, ∃ word, IsWord word ∧ (part = word ∨ part = word ++ ['\n'])
  /-- Every part is a word exactly when there is no line break in what is accepted. -/
  words : (∀ part ∈ partsOf value, IsWord part) ↔
    (∃ i, read field value = .ok i) ∧ '\n' ∉ trimChars value
  refused : ∀ e, read field value = .error e → e = .identifierInvalid field value
  text_eq : ∀ i, read field value = .ok i → i.text = trim value
  quoted_eq : ∀ i, read field value = .ok i →
    i.quoted = String.intercalate "."
      ((partsOf value).map fun part => "\"" ++ String.ofList part ++ "\"")
  unquote_eq : ∀ i, read field value = .ok i → unquote i.quoted = trim value

/-- A text is read as an identifier exactly when its parts are words, but for a line break that may
end each of them; nothing but the white space around it is lost, and quoting only adds quotes. -/
theorem readsExactly (field value : String) : ReadsExactly field value := by
  constructor
  case accepted => rw [exists_read_iff, isIdentifier_iff_partsOf]
  case words => rw [exists_read_iff, forall_isWord_iff]
  case refused =>
    intro e he
    rw [read] at he
    split at he
    · cases he
    · cases he
      rfl
  case text_eq => exact fun i => text_of_read
  case quoted_eq =>
    intro i hi
    rw [quoted_eq_intercalate, parts_of_read hi, partsOf]
  case unquote_eq =>
    intro i hi
    rw [unquote_quoted, text_of_read hi]

/-- The line break before a dot is read as part of the name, which no word has. -/
theorem not_isWord_of_read :
    ¬∀ value, (∃ i, read "identifier" value = .ok i) ↔ ∀ part ∈ partsOf value, IsWord part := by
  intro h
  have hread : ∃ i, read "identifier" "a\n.b" = .ok i := ⟨_, rfl⟩
  exact absurd ((h "a\n.b").1 hread) (by decide)

end Identifier

end TableQuery.Sql
