import TableQuery.Proofs.Sql.Token
import TableQuery.Sql.Select

/-!
# The pieces of a selection

The statement of a selection is spelled from words and quoted parts. The words are
keywords, punctuation, the numbers of the page, and the reference to the parameter;
the parts are the parts of the identifiers, in the order in which the clauses name them.
-/

namespace TableQuery.Sql

open TableQuery.Text

/-- An element satisfies what the separator and the lists satisfy. -/
theorem forall_mem_intercalate {α : Type} {p : α → Prop} {sep : List α} {xss : List (List α)}
    (hsep : ∀ x ∈ sep, p x) (hxss : ∀ xs ∈ xss, ∀ x ∈ xs, p x) :
    ∀ x ∈ List.intercalate sep xss, p x := by
  induction xss with
  | nil => simp
  | cons xs xss ih =>
      have hrest := ih fun ys hys => hxss ys (List.mem_cons_of_mem xs hys)
      have hxs := hxss xs List.mem_cons_self
      cases xss with
      | nil => simpa using hxs
      | cons ys xss =>
          intro x hx
          rw [List.intercalate_cons_cons, List.mem_append, List.mem_append] at hx
          rcases hx with (hx | hx) | hx
          · exact hxs x hx
          · exact hsep x hx
          · exact hrest x hx

theorem filterMap_intercalate {α β : Type} {f : α → Option β} {sep : List α}
    (hsep : sep.filterMap f = []) (xss : List (List α)) :
    (List.intercalate sep xss).filterMap f = xss.flatMap (List.filterMap f) := by
  induction xss with
  | nil => rfl
  | cons xs xss ih =>
      cases xss with
      | nil => simp
      | cons ys xss =>
          rw [List.intercalate_cons_cons, List.filterMap_append, List.filterMap_append, hsep, ih,
            List.append_nil]
          rfl

theorem count_intercalate {α : Type} [DecidableEq α] {x : α} {sep : List α} (hsep : x ∉ sep)
    (xss : List (List α)) :
    (List.intercalate sep xss).count x = xss.flatten.count x := by
  induction xss with
  | nil => rfl
  | cons xs xss ih =>
      cases xss with
      | nil => simp
      | cons ys xss =>
          rw [List.intercalate_cons_cons, List.count_append, List.count_append,
            List.count_eq_zero_of_not_mem hsep, ih, Nat.add_zero,
            List.flatten_cons (l := xs), List.count_append]

theorem isChain_intercalate {α : Type} {r : α → α → Prop} {sep : α} {xss : List (List α)}
    (hto : ∀ x, r x sep) (hfrom : ∀ x, r sep x) (hxss : ∀ xs ∈ xss, xs.IsChain r) :
    (List.intercalate [sep] xss).IsChain r := by
  induction xss with
  | nil => simp
  | cons xs xss ih =>
      have hrest := ih fun ys hys => hxss ys (List.mem_cons_of_mem xs hys)
      have hxs := hxss xs List.mem_cons_self
      cases xss with
      | nil => simpa using hxs
      | cons ys xss =>
          rw [List.intercalate_cons_cons, List.append_assoc, List.isChain_append]
          refine ⟨hxs, ?_, ?_⟩
          · rw [List.singleton_append, List.isChain_cons]
            exact ⟨fun y _ => hfrom y, hrest⟩
          · intro x _ y hy
            cases hy
            exact hto x

theorem isPartTail_or_eq_of_isPartRest {s : List Char} (h : isPartRest s = true) {c : Char}
    (hc : c ∈ s) : isPartTail c = true ∨ c = '\n' := by
  induction s with
  | nil => simp at hc
  | cons d s ih =>
      rw [isPartRest.eq_def] at h
      split at h
      · simp at *
      · next heq =>
          cases heq
          exact .inr (by simpa using hc)
      · next heq =>
          cases heq
          rw [Bool.and_eq_true] at h
          rcases List.mem_cons.1 hc with rfl | hc
          · exact .inl h.1
          · exact ih h.2 hc

/-- A character of a part is a letter, a digit, an underscore or a line break. -/
theorem isPartTail_or_eq_of_isPart {p : List Char} (h : isPart p = true) {c : Char} (hc : c ∈ p) :
    isPartTail c = true ∨ c = '\n' := by
  cases p with
  | nil => simp at hc
  | cons d s =>
      rw [isPart, Bool.and_eq_true] at h
      rcases List.mem_cons.1 hc with rfl | hc
      · have hhead := h.1
        rw [isPartHead, Bool.or_eq_true] at hhead
        rcases hhead with hhead | hhead <;> simp [isPartTail, hhead]
      · exact isPartTail_or_eq_of_isPartRest h.2 hc

theorem ne_nil_of_isPart {p : List Char} (h : isPart p = true) : p ≠ [] := by
  rintro rfl
  exact absurd h (by decide)

theorem quote_not_mem_of_isPart {p : List Char} (h : isPart p = true) : '"' ∉ p := by
  intro hc
  rcases isPartTail_or_eq_of_isPart h hc with hc | hc
  · exact absurd hc (by decide)
  · exact absurd hc (by decide)

namespace Identifier

/-- The pieces of an identifier: its parts and dots between them. -/
def tokens (i : Identifier) : List Token :=
  List.intercalate [.word "."] (i.parts.map fun p => [.part p])

theorem spell_tokens (i : Identifier) : Token.spell i.tokens = i.quoted.toList := by
  rw [tokens, Token.spell_intercalate, quoted, String.toList_ofList, List.map_map]
  congr 1
  simp [Token.spell, Token.chars]

theorem isPart_of_mem {i : Identifier} {p : List Char} (h : p ∈ i.parts) : isPart p = true :=
  List.all_eq_true.1 i.areParts p h

theorem filterMap_tokens (i : Identifier) : i.tokens.filterMap Token.part? = i.parts := by
  rw [tokens, filterMap_intercalate (by rfl), List.flatMap_map]
  simp [Token.part?]

end Identifier

/-- The keywords and the punctuation of a statement. -/
def keywords : List String :=
  ["SELECT", "FROM", "INNER JOIN", "ON", "WHERE", "ORDER BY", "ASC", "DESC", "LIMIT", "OFFSET",
    " ", ",", ".", "*", "="]

/-- The words of a statement: the keywords and the numbers of the page. -/
def vocabulary (limit offset : Option Nat) : List String :=
  keywords ++ limit.toList.map Nat.repr ++ offset.toList.map Nat.repr

theorem keywords_subset_vocabulary (limit offset : Option Nat) :
    keywords ⊆ vocabulary limit offset := by
  intro w hw
  rw [vocabulary, List.append_assoc]
  exact List.mem_append_left _ hw

theorem not_mem_repr {c : Char} (h : c.isDigit = false) (n : Nat) : c ∉ n.repr.toList := by
  intro hc
  rw [Nat.toList_repr] at hc
  have hdigit := Nat.isDigit_of_mem_toDigits (by decide) (by decide) hc
  exact absurd hdigit (by simp [h])

/-- No word of the vocabulary holds a double quote or a dollar sign. -/
theorem not_mem_of_mem_vocabulary {limit offset : Option Nat} {w : String}
    (h : w ∈ vocabulary limit offset) : '"' ∉ w.toList ∧ '$' ∉ w.toList := by
  have hkeywords : ∀ v ∈ keywords, '"' ∉ v.toList ∧ '$' ∉ v.toList := by decide
  have hnumbers : ∀ n : Nat, '"' ∉ n.repr.toList ∧ '$' ∉ n.repr.toList := fun n =>
    ⟨not_mem_repr (by decide) n, not_mem_repr (by decide) n⟩
  rw [vocabulary, List.mem_append, List.mem_append] at h
  rcases h with (h | h) | h
  · exact hkeywords w h
  · obtain ⟨n, -, rfl⟩ := List.mem_map.1 h
    exact hnumbers n
  · obtain ⟨n, -, rfl⟩ := List.mem_map.1 h
    exact hnumbers n

/-- A piece that is one of the words or a part of an identifier. -/
def Token.Known (words : List String) : Token → Prop
  | word w => w ∈ words
  | part p => isPart p = true

theorem known_words {words : List String} (h : keywords ⊆ words) (ws : List String)
    (hws : ws ⊆ keywords) :
    ∀ t ∈ ws.map Token.word, t.Known words := by
  intro t ht
  obtain ⟨w, hw, rfl⟩ := List.mem_map.1 ht
  exact h (hws hw)

theorem Identifier.known_tokens {words : List String} (h : keywords ⊆ words) (i : Identifier) :
    ∀ t ∈ i.tokens, t.Known words := by
  apply forall_mem_intercalate
  · exact known_words h ["."] (by decide)
  · intro ts hts t ht
    obtain ⟨p, hp, rfl⟩ := List.mem_map.1 hts
    rw [List.mem_singleton.1 ht]
    exact isPart_of_mem hp

/-- The pieces of a column behind its table. -/
def qualifiedTokens (table column : Identifier) : List Token :=
  table.tokens ++ [.word "."] ++ column.tokens

theorem spell_qualifiedTokens (table column : Identifier) :
    Token.spell (qualifiedTokens table column) = (qualified table column).toList := by
  simp [qualifiedTokens, qualified, Token.spell_append, Token.spell_cons, Token.chars,
    Identifier.spell_tokens]

theorem known_qualifiedTokens {words : List String} (h : keywords ⊆ words)
    (table column : Identifier) : ∀ t ∈ qualifiedTokens table column, t.Known words := by
  rw [qualifiedTokens, List.forall_mem_append, List.forall_mem_append]
  exact ⟨⟨table.known_tokens h, known_words h ["."] (by decide)⟩, column.known_tokens h⟩

namespace SelectItem

/-- The pieces of an entry of the projection. -/
def tokens : SelectItem → List Token
  | all => [.word "*"]
  | allOf table => table.tokens ++ [.word ".", .word "*"]
  | column c => c.tokens

/-- The parts of the identifier of an entry; `*` has none. -/
def parts : SelectItem → List (List Char)
  | all => []
  | allOf table => table.parts
  | column c => c.parts

theorem spell_tokens (i : SelectItem) : Token.spell i.tokens = i.render.toList := by
  cases i with
  | all => rfl
  | allOf table =>
      rw [tokens, Token.spell_append, Identifier.spell_tokens, render, String.toList_append]
      rfl
  | column c => exact c.spell_tokens

theorem filterMap_tokens (i : SelectItem) : i.tokens.filterMap Token.part? = i.parts := by
  cases i with
  | all => rfl
  | allOf table => simp [tokens, parts, Identifier.filterMap_tokens, Token.part?]
  | column c => exact c.filterMap_tokens

theorem known_tokens {words : List String} (h : keywords ⊆ words) (i : SelectItem) :
    ∀ t ∈ i.tokens, t.Known words := by
  cases i with
  | all => exact known_words h ["*"] (by decide)
  | allOf table =>
      rw [tokens, List.forall_mem_append]
      exact ⟨table.known_tokens h, known_words h [".", "*"] (by decide)⟩
  | column c => exact c.known_tokens h

end SelectItem

namespace JoinClause

/-- The pieces of a join to a base table. -/
def tokens (base : Identifier) (j : JoinClause) : List Token :=
  [.word "INNER JOIN", .word " "] ++ j.table.tokens ++ [.word " ", .word "ON", .word " "] ++
    qualifiedTokens base j.leftColumn ++ [.word " ", .word "=", .word " "] ++
    qualifiedTokens j.table j.rightColumn

/-- The parts of the identifiers of a join, the joined table named twice. -/
def parts (base : Identifier) (j : JoinClause) : List (List Char) :=
  j.table.parts ++ base.parts ++ j.leftColumn.parts ++ j.table.parts ++ j.rightColumn.parts

theorem spell_tokens (base : Identifier) (j : JoinClause) :
    Token.spell (j.tokens base) = (j.render base).toList := by
  simp only [tokens, render, Token.spell_append, Identifier.spell_tokens, spell_qualifiedTokens,
    String.toList_append]
  rfl

theorem filterMap_tokens (base : Identifier) (j : JoinClause) :
    (j.tokens base).filterMap Token.part? = j.parts base := by
  simp [tokens, parts, qualifiedTokens, Identifier.filterMap_tokens]

theorem known_tokens {words : List String} (h : keywords ⊆ words) (base : Identifier)
    (j : JoinClause) : ∀ t ∈ j.tokens base, t.Known words := by
  rw [tokens, List.forall_mem_append, List.forall_mem_append, List.forall_mem_append,
    List.forall_mem_append, List.forall_mem_append]
  refine ⟨⟨⟨⟨⟨?_, j.table.known_tokens h⟩, ?_⟩, known_qualifiedTokens h base j.leftColumn⟩, ?_⟩,
    known_qualifiedTokens h j.table j.rightColumn⟩
  · exact known_words h ["INNER JOIN", " "] (by decide)
  · exact known_words h [" ", "ON", " "] (by decide)
  · exact known_words h [" ", "=", " "] (by decide)

end JoinClause

/-- The pieces of a filter; its literal is the parameter. -/
def FilterClause.tokens (f : FilterClause) : List Token :=
  [.word "WHERE", .word " "] ++ f.column.tokens ++ [.word " ", .word "=", .word " ", .first]

theorem FilterClause.spell_tokens (f : FilterClause) :
    Token.spell f.tokens =
      ("WHERE " ++ f.column.quoted ++ " = " ++ Statement.placeholder 1).toList := by
  simp only [tokens, Token.spell_append, Identifier.spell_tokens, String.toList_append,
    List.append_assoc]
  rfl

/-- A filter is made of known pieces and ends with the reference to its parameter. -/
theorem FilterClause.exists_tokens_eq {words : List String} (h : keywords ⊆ words)
    (f : FilterClause) :
    ∃ known, f.tokens = known ++ [Token.first] ∧ ∀ t ∈ known, t.Known words := by
  refine ⟨[.word "WHERE", .word " "] ++ f.column.tokens ++ [.word " ", .word "=", .word " "],
    by simp [tokens], ?_⟩
  rw [List.forall_mem_append, List.forall_mem_append]
  exact ⟨⟨known_words h ["WHERE", " "] (by decide), f.column.known_tokens h⟩,
    known_words h [" ", "=", " "] (by decide)⟩

/-- The pieces of an order. -/
def OrderClause.tokens (o : OrderClause) : List Token :=
  [.word "ORDER BY", .word " "] ++ o.column.tokens ++
    [.word " ", .word (if o.descending then "DESC" else "ASC")]

theorem OrderClause.spell_tokens (o : OrderClause) :
    Token.spell o.tokens = ("ORDER BY " ++ o.render).toList := by
  simp only [tokens, render, Token.spell_append, Identifier.spell_tokens, String.toList_append,
    List.append_assoc]
  cases o.descending <;> rfl

theorem OrderClause.known_tokens {words : List String} (h : keywords ⊆ words) (o : OrderClause) :
    ∀ t ∈ o.tokens, t.Known words := by
  rw [tokens, List.forall_mem_append, List.forall_mem_append]
  refine ⟨⟨known_words h ["ORDER BY", " "] (by decide), o.column.known_tokens h⟩, ?_⟩
  cases o.descending with
  | true => exact known_words h [" ", "DESC"] (by decide)
  | false => exact known_words h [" ", "ASC"] (by decide)

/-- The pieces of a bound of the page. -/
def boundTokens (keyword : String) (n : Nat) : List Token :=
  [.word keyword, .word " ", .word n.repr]

theorem spell_boundTokens (keyword : String) (n : Nat) :
    Token.spell (boundTokens keyword n) = (keyword ++ " " ++ n.repr).toList := by
  simp [boundTokens, Token.spell_cons, Token.chars]

theorem known_boundTokens {words : List String} (h : keywords ⊆ words) {keyword : String} {n : Nat}
    (hkeyword : keyword ∈ keywords) (hn : n.repr ∈ words) :
    ∀ t ∈ boundTokens keyword n, t.Known words := by
  have hspace : " " ∈ words := h (by decide)
  intro t ht
  rw [boundTokens, List.mem_cons, List.mem_cons, List.mem_singleton] at ht
  rcases ht with rfl | rfl | rfl
  · exact h hkeyword
  · exact hspace
  · exact hn

namespace Select

/-- The pieces of a projection. -/
def itemTokens (items : List SelectItem) : List Token :=
  if items.isEmpty then [.word "*"]
  else List.intercalate [.word ",", .word " "] (items.map SelectItem.tokens)

/-- The pieces of the clauses up to the joins. -/
def leading (s : Select) : List (List Token) :=
  [[.word "SELECT", .word " "] ++ itemTokens s.items, [.word "FROM", .word " "] ++ s.table.tokens] ++
    s.joins.map (JoinClause.tokens s.table)

/-- The pieces of the clauses behind the filter. -/
def trailing (s : Select) : List (List Token) :=
  s.order.toList.map OrderClause.tokens ++ s.limit.toList.map (boundTokens "LIMIT") ++
    s.offset.toList.map (boundTokens "OFFSET")

/-- The pieces of the clauses in their order. -/
def clauseTokens (s : Select) : List (List Token) :=
  s.leading ++ s.filter.toList.map FilterClause.tokens ++ s.trailing

/-- The pieces of the statement. -/
def tokens (s : Select) : List Token :=
  List.intercalate [.word " "] s.clauseTokens

/-- The parts of the identifiers of a selection in the order of the statement. -/
def parts (s : Select) : List (List Char) :=
  s.items.flatMap SelectItem.parts ++ s.table.parts ++ s.joins.flatMap (JoinClause.parts s.table) ++
    s.filter.toList.flatMap (fun f => f.column.parts) ++
    s.order.toList.flatMap (fun o => o.column.parts)

theorem spell_itemTokens (items : List SelectItem) :
    Token.spell (itemTokens items) = (renderItems items).toList := by
  rw [itemTokens, renderItems]
  by_cases h : items.isEmpty = true
  · rw [if_pos h, if_pos h]
    rfl
  · rw [if_neg h, if_neg h, Token.spell_intercalate, String.toList_intercalate, List.map_map,
      List.map_map]
    congr 1
    exact List.map_congr_left fun i _ => i.spell_tokens

theorem map_spell_clauseTokens (s : Select) :
    s.clauseTokens.map Token.spell = s.clauses.map String.toList := by
  obtain ⟨items, table, joins, filter, order, limit, offset⟩ := s
  have hjoins : joins.map (Token.spell ∘ JoinClause.tokens table) =
      joins.map (String.toList ∘ JoinClause.render table) :=
    List.map_congr_left fun j _ => j.spell_tokens table
  have hselect : Token.spell ([.word "SELECT", .word " "] ++ itemTokens items) =
      ("SELECT " ++ renderItems items).toList := by
    rw [Token.spell_append, spell_itemTokens, String.toList_append]
    rfl
  have hfrom : Token.spell ([.word "FROM", .word " "] ++ table.tokens) =
      ("FROM " ++ table.quoted).toList := by
    rw [Token.spell_append, Identifier.spell_tokens, String.toList_append]
    rfl
  simp only [clauseTokens, leading, trailing, clauses, ← List.append_assoc, List.map_append,
    List.map_map, List.map_cons, List.map_nil, hjoins, hselect, hfrom]
  congr 1
  · congr 1
    · congr 1
      · congr 1
        cases filter with
        | none => rfl
        | some f => exact congrArg (fun c => [c]) f.spell_tokens
      · cases order with
        | none => rfl
        | some o => exact congrArg (fun c => [c]) o.spell_tokens
    · cases limit with
      | none => rfl
      | some n => exact congrArg (fun c => [c]) (spell_boundTokens "LIMIT" n)
  · cases offset with
    | none => rfl
    | some n => exact congrArg (fun c => [c]) (spell_boundTokens "OFFSET" n)

theorem spell_tokens (s : Select) : Token.spell s.tokens = s.statement.sql.toList := by
  rw [tokens, Token.spell_intercalate, map_spell_clauseTokens, statement, String.toList_intercalate]
  rfl

theorem filterMap_itemTokens (items : List SelectItem) :
    (itemTokens items).filterMap Token.part? = items.flatMap SelectItem.parts := by
  rw [itemTokens]
  by_cases h : items.isEmpty = true
  · rw [if_pos h, List.isEmpty_iff.1 h]
    rfl
  · rw [if_neg h, filterMap_intercalate (by rfl), List.flatMap_map]
    exact congrArg (items.flatMap ·) (funext SelectItem.filterMap_tokens)

theorem filterMap_tokens (s : Select) : s.tokens.filterMap Token.part? = s.parts := by
  obtain ⟨items, table, joins, filter, order, limit, offset⟩ := s
  have hjoins : (joins.map (JoinClause.tokens table)).flatMap (List.filterMap Token.part?) =
      joins.flatMap (JoinClause.parts table) := by
    rw [List.flatMap_map]
    exact congrArg (joins.flatMap ·) (funext (JoinClause.filterMap_tokens table))
  rw [tokens, filterMap_intercalate (by rfl), clauseTokens, leading, trailing, parts]
  simp only [List.flatMap_append, hjoins]
  cases filter <;> cases order <;> cases limit <;> cases offset <;>
    simp [filterMap_itemTokens, FilterClause.tokens, OrderClause.tokens, boundTokens,
      Identifier.filterMap_tokens, Token.first]

theorem known_itemTokens {words : List String} (h : keywords ⊆ words) (items : List SelectItem) :
    ∀ t ∈ itemTokens items, t.Known words := by
  rw [itemTokens]
  by_cases hitems : items.isEmpty = true
  · rw [if_pos hitems]
    exact known_words h ["*"] (by decide)
  · rw [if_neg hitems]
    apply forall_mem_intercalate
    · exact known_words h [",", " "] (by decide)
    · intro ts hts
      obtain ⟨i, -, rfl⟩ := List.mem_map.1 hts
      exact i.known_tokens h

theorem known_leading {s : Select} {words : List String} (h : keywords ⊆ words) :
    ∀ clause ∈ s.leading, ∀ t ∈ clause, t.Known words := by
  rw [leading, List.forall_mem_append, List.forall_mem_cons, List.forall_mem_singleton,
    List.forall_mem_append, List.forall_mem_append]
  refine ⟨⟨⟨?_, known_itemTokens h s.items⟩, ⟨?_, s.table.known_tokens h⟩⟩, ?_⟩
  · exact known_words h ["SELECT", " "] (by decide)
  · exact known_words h ["FROM", " "] (by decide)
  · intro clause hclause
    obtain ⟨j, -, rfl⟩ := List.mem_map.1 hclause
    exact j.known_tokens h s.table

theorem known_trailing (s : Select) :
    ∀ clause ∈ s.trailing, ∀ t ∈ clause, t.Known (vocabulary s.limit s.offset) := by
  have hwords := keywords_subset_vocabulary s.limit s.offset
  intro clause hclause
  simp only [trailing, List.mem_append, List.mem_map, Option.mem_toList] at hclause
  rcases hclause with (⟨o, -, rfl⟩ | ⟨n, hn, rfl⟩) | ⟨n, hn, rfl⟩
  · exact o.known_tokens hwords
  · exact known_boundTokens hwords (by decide) (by simp [vocabulary, hn])
  · exact known_boundTokens hwords (by decide) (by simp [vocabulary, hn])

/-- A clause is made of known pieces; only the filter has the reference behind them. -/
theorem known_clauseTokens {s : Select} {clause : List Token} (h : clause ∈ s.clauseTokens) :
    (∀ t ∈ clause, t.Known (vocabulary s.limit s.offset)) ∨
      ∃ known, clause = known ++ [Token.first] ∧
        ∀ t ∈ known, t.Known (vocabulary s.limit s.offset) := by
  have hwords := keywords_subset_vocabulary s.limit s.offset
  rw [clauseTokens, List.mem_append, List.mem_append] at h
  rcases h with (h | h) | h
  · exact .inl (known_leading hwords clause h)
  · obtain ⟨f, -, rfl⟩ := List.mem_map.1 h
    exact .inr (f.exists_tokens_eq hwords)
  · exact .inl (s.known_trailing clause h)

theorem first_not_known (limit offset : Option Nat) :
    ¬Token.first.Known (vocabulary limit offset) := by
  intro h
  exact (not_mem_of_mem_vocabulary h).2 (by decide)

theorem count_first_of_known {limit offset : Option Nat} {ts : List Token}
    (h : ∀ t ∈ ts, t.Known (vocabulary limit offset)) : ts.count Token.first = 0 := by
  rw [List.count_eq_zero]
  intro hfirst
  exact first_not_known limit offset (h Token.first hfirst)

theorem count_first_flatten_of_known {limit offset : Option Nat} {clauses : List (List Token)}
    (h : ∀ clause ∈ clauses, ∀ t ∈ clause, t.Known (vocabulary limit offset)) :
    clauses.flatten.count Token.first = 0 := by
  apply count_first_of_known
  intro t ht
  obtain ⟨clause, hclause, ht⟩ := List.mem_flatten.1 ht
  exact h clause hclause t ht

/-- A piece of the statement is known or refers to the parameter. -/
theorem known_tokens (s : Select) :
    ∀ t ∈ s.tokens, t = Token.first ∨ t.Known (vocabulary s.limit s.offset) := by
  apply forall_mem_intercalate
  · intro t ht
    rw [List.mem_singleton.1 ht]
    exact .inr (keywords_subset_vocabulary s.limit s.offset (by decide))
  · intro clause hclause t ht
    rcases known_clauseTokens hclause with hknown | ⟨known, rfl, hknown⟩
    · exact .inr (hknown t ht)
    · rcases List.mem_append.1 ht with ht | ht
      · exact .inr (hknown t ht)
      · exact .inl (List.mem_singleton.1 ht)

theorem isChain_of_known {limit offset : Option Nat} {ts : List Token}
    (h : ∀ t ∈ ts, t.Known (vocabulary limit offset)) : ts.IsChain Token.Spaced := by
  induction ts with
  | nil => simp
  | cons t ts ih =>
      rw [List.isChain_cons]
      refine ⟨fun u _ hfirst => ?_, ih fun u hu => h u (List.mem_cons_of_mem t hu)⟩
      exact absurd (hfirst ▸ h t List.mem_cons_self) (first_not_known limit offset)

/-- The reference to the parameter ends its clause, so a space follows it. -/
theorem isChain_tokens (s : Select) : s.tokens.IsChain Token.Spaced := by
  apply isChain_intercalate
  · intro t _
    rfl
  · intro t hspace
    exact absurd hspace (by decide)
  · intro clause hclause
    rcases known_clauseTokens hclause with hknown | ⟨known, rfl, hknown⟩
    · exact isChain_of_known hknown
    · rw [List.isChain_append]
      refine ⟨isChain_of_known hknown, by simp, fun t ht u _ hfirst => ?_⟩
      have hmem := List.mem_of_mem_getLast? ht
      exact absurd (hfirst ▸ hknown t hmem) (first_not_known s.limit s.offset)

/-- The statement refers to the parameter once for its filter. -/
theorem count_first_tokens (s : Select) : s.tokens.count Token.first = s.filter.toList.length := by
  have hwords := keywords_subset_vocabulary s.limit s.offset
  have hfilter : (s.filter.toList.map FilterClause.tokens).flatten.count Token.first =
      s.filter.toList.length := by
    cases s.filter with
    | none => rfl
    | some f =>
        obtain ⟨known, heq, hknown⟩ := f.exists_tokens_eq hwords
        simp [heq, count_first_of_known hknown]
  rw [tokens, count_intercalate (by decide), clauseTokens, List.flatten_append,
    List.flatten_append, List.count_append, List.count_append, hfilter,
    count_first_flatten_of_known (known_leading hwords),
    count_first_flatten_of_known s.known_trailing, Nat.zero_add, Nat.add_zero]

end Select

end TableQuery.Sql
