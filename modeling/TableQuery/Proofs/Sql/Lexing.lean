import TableQuery.Database.Reader
import TableQuery.Proofs.Sql.Decoding
import TableQuery.Proofs.Text.Digits

/-!
# The lexemes of a statement

The statement of a selection is read as one run of lexemes for each of its clauses: the word that
starts the clause, and behind it the names, the marks and the other words of the clause.
-/

namespace TableQuery.Sql

open TableQuery.Text

open Plan (nameOf)

namespace Lexeme

/-- The lexemes of a name: its parts with dots between them. -/
def ofName : Name → List Lexeme
  | [] => []
  | [s] => [.name s]
  | s :: t :: parts => .name s :: .mark '.' :: ofName (t :: parts)

theorem ofName_append {n m : Name} (hn : n ≠ []) (hm : m ≠ []) :
    ofName (n ++ m) = ofName n ++ .mark '.' :: ofName m := by
  induction n with
  | nil => exact absurd rfl hn
  | cons s n ih =>
      cases n with
      | nil =>
          obtain ⟨t, parts, rfl⟩ := List.exists_cons_of_ne_nil hm
          rfl
      | cons t n =>
          rw [List.cons_append, List.cons_append, ofName, ← List.cons_append,
            ih (List.cons_ne_nil t n)]
          rfl

theorem ofQuoted_append {p : List Char} (h : '"' ∉ p) (cs u : List Char) :
    ofQuoted cs (p ++ '"' :: u) = .name (String.ofList (cs.reverse ++ p)) :: ofChars [] u := by
  induction p generalizing cs with
  | nil => rw [List.nil_append, ofQuoted, if_pos rfl, List.append_nil]
  | cons c p ih =>
      rw [List.mem_cons, not_or] at h
      rw [List.cons_append, ofQuoted, if_neg (Ne.symm h.1), ih h.2, List.reverse_cons,
        List.append_assoc, List.singleton_append]

theorem ofChars_quotePart {p : List Char} (h : isPart p = true) (u : List Char) :
    ofChars [] (Identifier.quotePart p ++ u) = .name (String.ofList p) :: ofChars [] u := by
  rw [Identifier.quotePart, List.cons_append, List.append_assoc, List.singleton_append, ofChars,
    if_pos rfl, ofQuoted_append (quote_not_mem_of_isPart h)]
  rfl

/-- A name is read part by part. -/
theorem ofChars_quoted (i : Identifier) (u : List Char) :
    ofChars [] (i.quoted.toList ++ u) = ofName (nameOf i) ++ ofChars [] u := by
  obtain ⟨parts, hne, hparts⟩ := i
  rw [Identifier.toList_quoted, nameOf]
  induction parts with
  | nil => exact absurd rfl hne
  | cons p parts ih =>
      rw [List.all_cons, Bool.and_eq_true] at hparts
      cases parts with
      | nil =>
          rw [List.map_singleton, List.intercalate_singleton, ofChars_quotePart hparts.1]
          rfl
      | cons q parts =>
          have hdot : ∀ v, ofChars [] (['.'] ++ v) = .mark '.' :: ofChars [] v := fun _ => rfl
          simp only [List.map_cons] at ih ⊢
          rw [List.intercalate_cons_cons, List.append_assoc, List.append_assoc,
            ofChars_quotePart hparts.1, hdot, ih (List.cons_ne_nil q parts) hparts.2]
          rfl

theorem nameOf_ne_nil (i : Identifier) : nameOf i ≠ [] := by
  rw [nameOf, ne_eq, List.map_eq_nil_iff]
  exact i.nonempty

theorem ofChars_qualified (table column : Identifier) (u : List Char) :
    ofChars [] ((qualified table column).toList ++ u) =
      ofName (nameOf table ++ nameOf column) ++ ofChars [] u := by
  have hdot : ∀ v, ofChars [] ('.' :: v) = .mark '.' :: ofChars [] v := fun _ => rfl
  rw [toList_qualified, List.append_assoc, ofChars_quoted, List.cons_append, hdot, ofChars_quoted,
    ofName_append (nameOf_ne_nil table) (nameOf_ne_nil column), List.append_assoc,
    List.cons_append]

theorem ofChars_append {w : List Char} (h : ∀ c ∈ w, isPartTail c = true) (cs u : List Char) :
    ofChars cs (w ++ u) = ofChars (w.reverse ++ cs) u := by
  induction w generalizing cs with
  | nil => rfl
  | cons c w ih =>
      rw [List.forall_mem_cons] at h
      have hquote : c ≠ '"' := by
        rintro rfl
        exact absurd h.1 (by decide)
      rw [List.cons_append, ofChars, if_neg hquote, if_pos h.1, ih h.2, List.reverse_cons,
        List.append_assoc, List.singleton_append]

/-- A word ends where its clause does. -/
theorem ofChars_of_endsClause {u : List Char} (h : EndsClause u) (cs : List Char) :
    ofChars cs u = ofWord cs ++ ofChars [] u := by
  obtain rfl | ⟨v, rfl⟩ := h
  · exact (List.append_nil _).symm
  · rfl

theorem ofChars_repr (n : Nat) {u : List Char} (h : EndsClause u) :
    ofChars [] (n.repr.toList ++ u) = .word n.repr :: ofChars [] u := by
  have htail : ∀ c ∈ n.repr.toList, isPartTail c = true := by
    intro c hc
    rw [Nat.toList_repr] at hc
    simp [isPartTail, isAsciiDigit_of_mem_toDigits hc]
  rw [ofChars_append htail, ofChars_of_endsClause h, ofWord, List.append_nil, List.reverse_reverse,
    String.ofList_toList, if_neg (by simp)]
  rfl

end Lexeme

open Lexeme (ofName ofChars ofChars_quoted ofChars_qualified ofChars_repr)

namespace SelectItem

/-- The lexemes of an entry of the projection. -/
def lexemes : SelectItem → List Lexeme
  | .all => [.mark '*']
  | .allOf table => ofName (nameOf table) ++ [.mark '.', .mark '*']
  | .column c => ofName (nameOf c)

theorem ofChars_render (i : SelectItem) (u : List Char) :
    ofChars [] (i.render.toList ++ u) = i.lexemes ++ ofChars [] u := by
  have hstar : ∀ v, ofChars [] (".*".toList ++ v) = .mark '.' :: .mark '*' :: ofChars [] v :=
    fun _ => rfl
  cases i with
  | all => rfl
  | allOf table =>
      rw [render, String.toList_append, List.append_assoc, ofChars_quoted, hstar, lexemes,
        List.append_assoc]
      rfl
  | column c => exact ofChars_quoted c u

theorem ofChars_intercalate {items : List SelectItem} (h : items ≠ []) (u : List Char) :
    ofChars [] (List.intercalate ", ".toList (items.map fun i => i.render.toList) ++ u) =
      List.intercalate [.mark ','] (items.map lexemes) ++ ofChars [] u := by
  have hcomma : ∀ v, ofChars [] (", ".toList ++ v) = .mark ',' :: ofChars [] v := fun _ => rfl
  induction items with
  | nil => exact absurd rfl h
  | cons i items ih =>
      cases items with
      | nil =>
          rw [List.map_singleton, List.map_singleton, List.intercalate_singleton,
            List.intercalate_singleton, ofChars_render]
      | cons j items =>
          simp only [List.map_cons] at ih ⊢
          rw [List.intercalate_cons_cons, List.intercalate_cons_cons, List.append_assoc,
            List.append_assoc, ofChars_render, hcomma, ih (List.cons_ne_nil j items)]
          simp only [List.append_assoc, List.cons_append, List.nil_append]

end SelectItem

namespace JoinClause

/-- The lexemes of a join behind the word that starts it. -/
def lexemes (base : Identifier) (j : JoinClause) : List Lexeme :=
  .word "JOIN" :: (ofName (nameOf j.table) ++ .word "ON" ::
    (ofName (nameOf base ++ nameOf j.leftColumn) ++ .mark '=' ::
      ofName (nameOf j.table ++ nameOf j.rightColumn)))

theorem ofChars_render (base : Identifier) (j : JoinClause) (u : List Char) :
    ofChars [] (' ' :: (j.render base).toList ++ u) =
      .word "INNER" :: (j.lexemes base ++ ofChars [] u) := by
  have hjoin : ∀ v, ofChars [] (' ' :: ("INNER JOIN ".toList ++ v)) =
      .word "INNER" :: .word "JOIN" :: ofChars [] v := fun _ => rfl
  have hon : ∀ v, ofChars [] (" ON ".toList ++ v) = .word "ON" :: ofChars [] v := fun _ => rfl
  have hequals : ∀ v, ofChars [] (" = ".toList ++ v) = .mark '=' :: ofChars [] v := fun _ => rfl
  simp only [render, String.toList_append, List.append_assoc, List.cons_append, hjoin, hon, hequals,
    ofChars_quoted, ofChars_qualified, lexemes]

end JoinClause

namespace OrderClause

/-- The lexemes of an order behind the word that starts it. -/
def lexemes (o : OrderClause) : List Lexeme :=
  .word "BY" :: (ofName (nameOf o.column) ++ [.word (if o.descending then "DESC" else "ASC")])

theorem ofChars_render (o : OrderClause) {u : List Char} (h : EndsClause u) :
    ofChars [] (" ORDER BY ".toList ++ (o.render.toList ++ u)) =
      .word "ORDER" :: (o.lexemes ++ ofChars [] u) := by
  have horder : ∀ v, ofChars [] (" ORDER BY ".toList ++ v) =
      .word "ORDER" :: .word "BY" :: ofChars [] v := fun _ => rfl
  have hdescending := Lexeme.ofChars_of_endsClause h ['C', 'S', 'E', 'D']
  have hascending := Lexeme.ofChars_of_endsClause h ['C', 'S', 'A']
  rw [horder, render, String.toList_append, List.append_assoc, ofChars_quoted, lexemes,
    List.cons_append, List.append_assoc]
  congr 3
  cases o.descending with
  | true => exact hdescending
  | false => exact hascending

end OrderClause

namespace Clause

/-- A clause as it is read: the word that starts it, and the lexemes behind it. -/
def segment (base : Identifier) : Clause → Plan.Segment
  | join j => ("INNER", j.lexemes base)
  | filter column => ("WHERE", ofName (nameOf column) ++ [.mark '=', .mark '$', .word "1"])
  | order o => ("ORDER", o.lexemes)
  | limit n => ("LIMIT", [.word n.repr])
  | offset n => ("OFFSET", [.word n.repr])

theorem ofChars_render (base : Identifier) (c : Clause) {u : List Char} (h : EndsClause u) :
    ofChars [] (' ' :: (c.render base).toList ++ u) =
      .word (c.segment base).1 :: ((c.segment base).2 ++ ofChars [] u) := by
  cases c with
  | join j => exact j.ofChars_render base u
  | filter column =>
      have hwhere : ∀ v, ofChars [] (' ' :: ("WHERE ".toList ++ v)) =
          .word "WHERE" :: ofChars [] v := fun _ => rfl
      have hequals : ∀ v, ofChars [] (" = ".toList ++ ((Statement.placeholder 1).toList ++ v)) =
          .mark '=' :: .mark '$' :: ofChars ['1'] v := fun _ => rfl
      simp only [render, String.toList_append, List.append_assoc, List.cons_append, hwhere,
        ofChars_quoted, hequals, Lexeme.ofChars_of_endsClause h ['1'], segment]
      rfl
  | order o =>
      rw [render, String.toList_append, List.cons_append, List.append_assoc]
      exact o.ofChars_render h
  | limit n =>
      have hlimit : ∀ v, ofChars [] (' ' :: ("LIMIT ".toList ++ v)) =
          .word "LIMIT" :: ofChars [] v := fun _ => rfl
      rw [render, String.toList_append, List.cons_append, List.append_assoc, hlimit,
        ofChars_repr n h]
      rfl
  | offset n =>
      have hoffset : ∀ v, ofChars [] (' ' :: ("OFFSET ".toList ++ v)) =
          .word "OFFSET" :: ofChars [] v := fun _ => rfl
      rw [render, String.toList_append, List.cons_append, List.append_assoc, hoffset,
        ofChars_repr n h]
      rfl

end Clause

namespace Select

/-- The clauses of a selection as they are read. -/
def segments (s : Select) : List Plan.Segment :=
  ("SELECT", List.intercalate [.mark ','] (s.shownItems.map SelectItem.lexemes)) ::
    ("FROM", ofName (nameOf s.table)) :: s.laterClauses.map (Clause.segment s.table)

theorem ofChars_laterClauses (base : Identifier) (clauses : List Clause) :
    ofChars [] (clauses.flatMap fun c => ' ' :: (c.render base).toList) =
      (clauses.map (Clause.segment base)).flatMap fun seg => .word seg.1 :: seg.2 := by
  induction clauses with
  | nil => rfl
  | cons c clauses ih =>
      have hends : EndsClause (clauses.flatMap fun c => ' ' :: (c.render base).toList) := by
        cases clauses with
        | nil => exact .inl rfl
        | cons d clauses => exact .inr ⟨_, rfl⟩
      rw [List.flatMap_cons, c.ofChars_render base hends, ih, List.map_cons, List.flatMap_cons,
        List.cons_append]

/-- A statement is read clause by clause. -/
theorem read_sql (s : Select) :
    Lexeme.read s.statement.sql = s.segments.flatMap fun seg => .word seg.1 :: seg.2 := by
  have hselect : ∀ v, ofChars [] ("SELECT ".toList ++ v) = .word "SELECT" :: ofChars [] v :=
    fun _ => rfl
  have hfrom : ∀ v, ofChars [] (" FROM ".toList ++ v) = .word "FROM" :: ofChars [] v :=
    fun _ => rfl
  rw [Lexeme.read, toList_sql, hselect, SelectItem.ofChars_intercalate s.shownItems_ne_nil, hfrom,
    ofChars_quoted, ofChars_laterClauses]
  simp only [segments, List.flatMap_cons, List.cons_append]

end Select

end TableQuery.Sql
