import TableQuery.Proofs.Reading
import TableQuery.Proofs.Sql.Lexing
import TableQuery.Sql.Compile

/-!
# The plan of a selection

A database reads the statement of a selection as the plan that the selection stands for: the rows of
the base table and of each joined one where a column behind the base table equals a column behind
the joined table, then the filter, the order and the page.
-/

namespace TableQuery

open TableQuery.Text TableQuery.Sql

open Lexeme (ofName nameOf_ne_nil)

namespace Plan

/-- A join of a selection to its base table. -/
def ofJoin (base : Identifier) (j : JoinClause) : PlanJoin :=
  ⟨nameOf j.table, nameOf base ++ nameOf j.leftColumn, nameOf j.table ++ nameOf j.rightColumn⟩

/-- The plan of a selection. -/
def ofSelect (s : Select) : Plan where
  items := if s.items.isEmpty then [.all] else s.items.map ofItem
  table := nameOf s.table
  joins := s.joins.map (ofJoin s.table)
  condition := s.filter.map fun f => ⟨nameOf f.column, .equal, f.literal⟩
  order := s.order.map fun o => (nameOf o.column, o.descending)
  limit := s.limit
  offset := s.offset

section Segments

theorem segments_append {ls : List Lexeme} (h : ∀ w, .word w ∈ ls → w ∉ heads)
    (rest : List Lexeme) :
    segments (ls ++ rest) = (ls ++ (segments rest).1, (segments rest).2) := by
  induction ls with
  | nil => rfl
  | cons l ls ih =>
      have htail := ih fun w hw => h w (List.mem_cons_of_mem l hw)
      cases l with
      | word w =>
          have hw : heads.contains w = false := by
            simpa using h w List.mem_cons_self
          rw [List.cons_append, segments, htail]
          simp only [hw, Bool.false_eq_true, if_false, List.cons_append]
      | name s =>
          rw [List.cons_append, segments, htail, List.cons_append]
          simp
      | mark c =>
          rw [List.cons_append, segments, htail, List.cons_append]
          simp

/-- Clauses that are read one after the other are cut where they start. -/
theorem segments_flatMap {clauses : List Segment}
    (h : ∀ seg ∈ clauses, seg.1 ∈ heads ∧ ∀ w, .word w ∈ seg.2 → w ∉ heads) :
    segments (clauses.flatMap fun seg => .word seg.1 :: seg.2) = ([], clauses) := by
  induction clauses with
  | nil => rfl
  | cons seg clauses ih =>
      rw [List.forall_mem_cons] at h
      have hhead : heads.contains seg.1 = true := by
        simpa using h.1.1
      rw [List.flatMap_cons, List.cons_append, segments, segments_append h.1.2, ih h.2]
      simp only [hhead, if_true, List.append_nil]

/-- The clauses that start with one word are read up to those that start with another. -/
theorem readAll?_map {α β : Type} (head : String) {read : List Lexeme → Option β}
    (body : α → List Lexeme) {f : α → β} {xs : List α} {rest : List Segment}
    (hread : ∀ x ∈ xs, read (body x) = some (f x)) (hrest : ∀ seg ∈ rest, seg.1 ≠ head) :
    readAll? head read (xs.map (fun x => (head, body x)) ++ rest) = some (xs.map f, rest) := by
  induction xs with
  | nil =>
      cases rest with
      | nil => rfl
      | cons seg rest =>
          obtain ⟨w, ls⟩ := seg
          rw [List.map_nil, List.nil_append, readAll?, if_neg (hrest _ List.mem_cons_self)]
          rfl
  | cons x xs ih =>
      rw [List.forall_mem_cons] at hread
      rw [List.map_cons, List.cons_append, readAll?, if_pos rfl, hread.1, ih hread.2]
      rfl

theorem readAll?_cons {β : Type} (head : String) {read : List Lexeme → Option β}
    {ls : List Lexeme} {b : β} {rest : List Segment} (hread : read ls = some b)
    (hrest : ∀ seg ∈ rest, seg.1 ≠ head) :
    readAll? head read ((head, ls) :: rest) = some ([b], rest) := by
  have hread' : ∀ x ∈ [()], read ((fun _ => ls) x) = some ((fun _ => b) x) := fun _ _ => hread
  exact readAll?_map head _ hread' hrest

theorem atMostOne?_map_toList {α β : Type} (f : α → β) (a : Option α) :
    atMostOne? (a.toList.map f) = some (a.map f) := by
  cases a <;> rfl

end Segments

section Names

theorem not_mem_ofName {l : Lexeme} (hname : ∀ s, l ≠ .name s) (hdot : l ≠ .mark '.') (n : Name) :
    l ∉ ofName n := by
  induction n with
  | nil => exact List.not_mem_nil
  | cons s n ih =>
      cases n with
      | nil => simpa [ofName] using hname s
      | cons t n =>
          rw [ofName, List.mem_cons, List.mem_cons]
          rintro (h | h | h)
          · exact hname s h
          · exact hdot h
          · exact ih h

theorem word_notMem_ofName (w : String) (n : Name) : .word w ∉ ofName n :=
  not_mem_ofName (by simp) (by simp) n

theorem mark_notMem_ofName {c : Char} (h : c ≠ '.') (n : Name) : .mark c ∉ ofName n :=
  not_mem_ofName (by simp) (by simpa using h) n

theorem readName?_ofName {n : Name} (h : n ≠ []) : readName? (ofName n) = some n := by
  induction n with
  | nil => exact absurd rfl h
  | cons s n ih =>
      cases n with
      | nil => rfl
      | cons t n =>
          rw [ofName, readName?, ih (List.cons_ne_nil t n)]
          rfl

theorem readName?_nameOf (i : Identifier) : readName? (ofName (nameOf i)) = some (nameOf i) :=
  readName?_ofName (nameOf_ne_nil i)

theorem readName?_qualified (i j : Identifier) :
    readName? (ofName (nameOf i ++ nameOf j)) = some (nameOf i ++ nameOf j) :=
  readName?_ofName (List.append_ne_nil_of_left_ne_nil (nameOf_ne_nil i) _)

/-- A name ends in a part. -/
theorem getLast?_ofName {n : Name} (h : n ≠ []) : ∃ s, (ofName n).getLast? = some (.name s) := by
  induction n with
  | nil => exact absurd rfl h
  | cons s n ih =>
      cases n with
      | nil => exact ⟨s, rfl⟩
      | cons t n =>
          obtain ⟨last, hlast⟩ := ih (List.cons_ne_nil t n)
          refine ⟨last, ?_⟩
          rw [ofName, List.getLast?_cons, List.getLast?_cons, hlast]
          rfl

theorem splitOn_pair {l : Lexeme} {left right : List Lexeme} (hleft : l ∉ left)
    (hright : l ∉ right) : (left ++ l :: right).splitOn l = [left, right] := by
  have hparts : ∀ part ∈ [left, right], l ∉ part := by
    simp [hleft, hright]
  simpa using List.splitOn_intercalate l hparts (List.cons_ne_nil _ _)

theorem readSides?_append {left right : List Lexeme} (hleft : .mark '=' ∉ left)
    (hright : .mark '=' ∉ right) :
    readSides? (left ++ .mark '=' :: right) = some (left, right) := by
  rw [readSides?, splitOn_pair hleft hright]

end Names

section Clauses

theorem readItem?_lexemes (i : SelectItem) : readItem? i.lexemes = some (ofItem i) := by
  cases i with
  | all => rfl
  | allOf table =>
      have hstar : ofName (nameOf table) ++ [.mark '.', .mark '*'] ≠ [Lexeme.mark '*'] := by
        intro h
        have hlength := congrArg List.length h
        simp at hlength
      have hsuffix : [Lexeme.mark '.', .mark '*'].isSuffixOf
          (ofName (nameOf table) ++ [.mark '.', .mark '*']) = true :=
        List.isSuffixOf_iff_suffix.2 (List.suffix_append _ _)
      rw [SelectItem.lexemes, readItem?, if_neg hstar, if_pos hsuffix, List.length_append,
        List.length_cons, List.length_singleton, Nat.add_sub_cancel, List.take_left',
        readName?_nameOf]
      · rfl
      · rfl
  | column c =>
      obtain ⟨s, hlast⟩ := getLast?_ofName (nameOf_ne_nil c)
      have hstar : ofName (nameOf c) ≠ [Lexeme.mark '*'] := by
        intro h
        rw [h] at hlast
        cases hlast
      have hsuffix : ¬[Lexeme.mark '.', .mark '*'].isSuffixOf (ofName (nameOf c)) = true := by
        rw [List.isSuffixOf_iff_suffix]
        rintro ⟨front, h⟩
        rw [← h, List.getLast?_append] at hlast
        cases hlast
      rw [SelectItem.lexemes, readItem?, if_neg hstar, if_neg hsuffix, readName?_nameOf]
      rfl

theorem mapM_lexemes (items : List SelectItem) :
    (items.map SelectItem.lexemes).mapM readItem? = some (items.map ofItem) := by
  induction items with
  | nil => rfl
  | cons i items ih =>
      rw [List.map_cons, List.mapM_cons, readItem?_lexemes, ih]
      rfl

theorem readItems?_intercalate {items : List SelectItem} (h : items ≠ []) :
    readItems? (List.intercalate [.mark ','] (items.map SelectItem.lexemes)) =
      some (items.map ofItem) := by
  have hcomma : ∀ ls ∈ items.map SelectItem.lexemes, Lexeme.mark ',' ∉ ls := by
    intro ls hls
    obtain ⟨i, -, rfl⟩ := List.mem_map.1 hls
    cases i with
    | all => decide
    | allOf table => simp [SelectItem.lexemes, mark_notMem_ofName]
    | column c => exact mark_notMem_ofName (by decide) _
  rw [readItems?, List.splitOn_intercalate _ hcomma (by simpa using h), mapM_lexemes]

theorem readJoin?_lexemes (base : Identifier) (j : JoinClause) :
    readJoin? (j.lexemes base) = some (ofJoin base j) := by
  have hequals : ∀ n, Lexeme.mark '=' ∉ ofName n := mark_notMem_ofName (by decide)
  have hcondition : Lexeme.word "ON" ∉ ofName (nameOf base ++ nameOf j.leftColumn) ++ .mark '=' ::
      ofName (nameOf j.table ++ nameOf j.rightColumn) := by
    simp [word_notMem_ofName]
  rw [JoinClause.lexemes, readJoin?, splitOn_pair (word_notMem_ofName _ _) hcondition]
  simp only [readName?_nameOf, readSides?_append (hequals _) (hequals _), Option.bind_eq_bind,
    Option.bind_some, readName?_qualified]
  rfl

theorem readCount?_repr (n : Nat) : readCount? [.word n.repr] = some n := by
  have hdigits : ∀ c ∈ Nat.toDigits 10 n, isAsciiDigit c = true := fun c hc =>
    isAsciiDigit_of_mem_toDigits hc
  rw [readCount?, Nat.toList_repr, if_pos (List.all_eq_true.2 hdigits), digitsValue_toDigits]

theorem readCondition?_lexemes (c : Identifier) (literal : String) :
    readCondition? [.text literal] (ofName (nameOf c) ++ [.mark '=', .mark '$', .word "1"]) =
      some ⟨nameOf c, .equal, literal⟩ := by
  rw [readCondition?, readSides?_append (mark_notMem_ofName (by decide) _) (by decide)]
  simp only [Option.bind_eq_bind, Option.bind_some, readName?_nameOf]
  rfl

theorem readOrder?_lexemes (o : OrderClause) :
    readOrder? o.lexemes = some (nameOf o.column, o.descending) := by
  rw [OrderClause.lexemes, readOrder?, List.getLast?_concat, List.dropLast_concat]
  cases o.descending <;> simp [readName?_nameOf]

end Clauses

section Statements

/-- A clause behind the one for the base table starts with the word of its kind, and no other word
in it starts a clause. -/
theorem segment_heads (base : Identifier) (c : Clause) :
    (c.segment base).1 ∈ heads ∧ ∀ w, .word w ∈ (c.segment base).2 → w ∉ heads := by
  have hrepr : ∀ n : Nat, n.repr ∉ heads := by
    intro n hn
    have hdigits : ∀ w ∈ heads, w.toList.all isAsciiDigit = false := by decide
    have hall : n.repr.toList.all isAsciiDigit = true := by
      rw [List.all_eq_true, Nat.toList_repr]
      exact fun c hc => isAsciiDigit_of_mem_toDigits hc
    rw [hdigits _ hn] at hall
    cases hall
  cases c with
  | join j => simp [Clause.segment, JoinClause.lexemes, word_notMem_ofName, heads]
  | filter column => simp [Clause.segment, word_notMem_ofName, heads]
  | order o =>
      cases h : o.descending <;>
        simp [Clause.segment, OrderClause.lexemes, word_notMem_ofName, heads, h]
  | limit n => simpa [Clause.segment, heads] using hrepr n
  | offset n => simpa [Clause.segment, heads] using hrepr n

theorem segments_heads (s : Select) :
    ∀ seg ∈ s.segments, seg.1 ∈ heads ∧ ∀ w, .word w ∈ seg.2 → w ∉ heads := by
  have hitems : ∀ l ∈ List.intercalate [.mark ','] (s.shownItems.map SelectItem.lexemes), ∀ w,
      l ≠ Lexeme.word w := by
    apply forall_mem_intercalate
    · simp
    · intro ls hls l hl w
      obtain ⟨i, -, rfl⟩ := List.mem_map.1 hls
      rintro rfl
      cases i <;> simp [SelectItem.lexemes, word_notMem_ofName] at hl
  rw [Select.segments, List.forall_mem_cons, List.forall_mem_cons]
  refine ⟨⟨List.mem_cons_self, fun w hw => absurd rfl (hitems _ hw w)⟩,
    ⟨List.mem_cons_of_mem _ List.mem_cons_self,
      fun w hw => absurd hw (word_notMem_ofName w _)⟩, ?_⟩
  intro seg hseg
  obtain ⟨c, -, rfl⟩ := List.mem_map.1 hseg
  exact segment_heads s.table c

/-- The later clauses by the words that start them. -/
theorem map_segment_laterClauses (s : Select) :
    s.laterClauses.map (Clause.segment s.table) =
      s.joins.map (fun j => ("INNER", j.lexemes s.table)) ++
        (s.filter.toList.map (fun f =>
            ("WHERE", ofName (nameOf f.column) ++ [.mark '=', .mark '$', .word "1"])) ++
          (s.order.toList.map (fun o => ("ORDER", o.lexemes)) ++
            (s.limit.toList.map (fun n => ("LIMIT", [.word n.repr])) ++
              (s.offset.toList.map (fun n => ("OFFSET", [.word n.repr])) ++ [])))) := by
  simp only [Select.laterClauses, List.map_append, List.map_map, List.append_assoc,
    List.append_nil]
  rfl

/-- The statement of a selection is read as its plan. -/
theorem ofStatement?_statement (s : Select) : ofStatement? s.statement = some (ofSelect s) := by
  have hitems : s.shownItems.map ofItem = (ofSelect s).items := by
    rw [Select.shownItems, ofSelect]
    split <;> rfl
  have hfilter : ∀ f ∈ s.filter.toList, readCondition? s.statement.params
      (ofName (nameOf f.column) ++ [.mark '=', .mark '$', .word "1"]) =
        some ⟨nameOf f.column, .equal, f.literal⟩ := by
    intro f hf
    have hparams : s.statement.params = [.text f.literal] := by
      rw [Select.statement, Option.mem_toList.1 hf]
      rfl
    rw [hparams, readCondition?_lexemes]
  rw [ofStatement?, Select.read_sql, segments_flatMap (segments_heads s), Select.segments,
    map_segment_laterClauses]
  dsimp only
  rw [ofSegments?, readAll?_cons "SELECT" (readItems?_intercalate s.shownItems_ne_nil)]
  simp only [Option.bind_eq_bind, Option.bind_some]
  rw [readAll?_cons "FROM" (readName?_nameOf s.table)]
  simp only [Option.bind_some]
  rw [readAll?_map "INNER" (JoinClause.lexemes s.table) fun j _ => readJoin?_lexemes s.table j]
  simp only [Option.bind_some]
  rw [readAll?_map "WHERE" _ hfilter]
  simp only [Option.bind_some]
  rw [readAll?_map "ORDER" OrderClause.lexemes fun o _ => readOrder?_lexemes o]
  simp only [Option.bind_some]
  rw [readAll?_map "LIMIT" (fun n : Nat => [.word n.repr]) fun n _ => readCount?_repr n]
  simp only [Option.bind_some]
  rw [readAll?_map "OFFSET" (fun n : Nat => [.word n.repr]) fun n _ => readCount?_repr n]
  simp only [Option.bind_some, atMostOne?_map_toList, hitems, Option.map_id']
  · rfl
  -- What is left is that no clause behind a kind starts with the word of that kind.
  all_goals simp [List.forall_mem_append, -List.mem_append, -List.mem_map, List.forall_mem_map]

/-- A compiled request is read as the plan of its selection. -/
theorem exists_ofSelect_of_compile {r : Request} {stmt : Statement}
    (h : Sql.compile .safe r = .ok stmt) :
    ∃ s, Select.ofRequest r = .ok s ∧ ofStatement? stmt = some (ofSelect s) := by
  obtain ⟨s, hs, rfl⟩ := map_eq_ok_iff.1 h
  exact ⟨s, hs, ofStatement?_statement s⟩

end Statements

end Plan

end TableQuery
