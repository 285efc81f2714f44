import TableQuery.Proofs.Sql.Reading
import TableQuery.Sql.Compile

/-!
# Names stand in quotes and values beside the statement

Cutting a compiled statement at its double quotes separates what the request names from what
the statement says about it: every second piece is a part of a name, and the pieces between
them are spelled from a fixed vocabulary. The literal of the filter is nowhere in the text,
which only refers to it.
-/

namespace TableQuery.Sql

open TableQuery.Text

namespace Statement

/-- The pieces of a statement between its double quotes, from the first on every second. -/
def quotedPieces (s : Statement) : List (List Char) :=
  inside (cut '"' s.sql.toList)

/-- The pieces of a statement outside its double quotes. -/
def barePieces (s : Statement) : List (List Char) :=
  outside (cut '"' s.sql.toList)

end Statement

/-- A text that is put together from some of the words. -/
def SpelledFrom (words : List String) (piece : List Char) : Prop :=
  ∃ ws : List String, ws ⊆ words ∧ piece = ws.flatMap String.toList

namespace Select

theorem noQuote_tokens (s : Select) : ∀ t ∈ s.tokens, t.NoQuote := by
  intro t ht
  rcases s.known_tokens t ht with rfl | hknown
  · exact (by decide : '"' ∉ "$1".toList)
  · cases t with
    | word w => exact (not_mem_of_mem_vocabulary hknown).1
    | part p => exact quote_not_mem_of_isPart hknown

theorem quotedPieces_statement (s : Select) : s.statement.quotedPieces = s.parts := by
  rw [Statement.quotedPieces, ← s.spell_tokens, Token.inside_cut_spell s.noQuote_tokens,
    s.filterMap_tokens]

theorem barePieces_statement (s : Select) :
    s.statement.barePieces = (Token.runs s.tokens).map Token.spellWords := by
  rw [Statement.barePieces, ← s.spell_tokens, Token.outside_cut_spell s.noQuote_tokens]

theorem length_pieces_statement (s : Select) :
    (cut '"' s.statement.sql.toList).length = 2 * s.parts.length + 1 := by
  rw [← s.spell_tokens, Token.length_cut_spell s.noQuote_tokens, s.filterMap_tokens]

theorem isPart_of_mem_parts {s : Select} {p : List Char} (h : p ∈ s.parts) : isPart p = true := by
  rw [← s.filterMap_tokens, List.mem_filterMap] at h
  obtain ⟨t, ht, hp⟩ := h
  cases t with
  | word w => cases hp
  | part q =>
      cases hp
      rcases s.known_tokens _ ht with hfirst | hknown
      · cases hfirst
      · exact hknown

theorem spelledFrom_of_mem_barePieces {s : Select} {piece : List Char}
    (h : piece ∈ s.statement.barePieces) :
    SpelledFrom ("$1" :: vocabulary s.limit s.offset) piece := by
  rw [barePieces_statement] at h
  obtain ⟨run, hrun, rfl⟩ := List.mem_map.1 h
  refine ⟨run, fun w hw => ?_, rfl⟩
  rcases s.known_tokens _ (Token.mem_of_mem_runs hrun hw) with hfirst | hknown
  · cases hfirst
    exact List.mem_cons_self
  · exact List.mem_cons_of_mem "$1" hknown

theorem placeholders_barePieces (s : Select) :
    s.statement.barePieces.flatMap placeholders =
      List.replicate s.filter.toList.length "$1".toList := by
  have hwords : ∀ w, Token.word w ∈ s.tokens → Token.word w ≠ Token.first → '$' ∉ w.toList := by
    intro w hw hne
    rcases s.known_tokens _ hw with hfirst | hknown
    · exact absurd hfirst hne
    · exact (not_mem_of_mem_vocabulary hknown).2
  rw [barePieces_statement, List.flatMap_map, Token.placeholders_runs s.isChain_tokens hwords,
    s.count_first_tokens]

/-- Only the column of a filter stands in the text. -/
theorem sql_statement_of_filter {s : Select} {f : FilterClause} (h : s.filter = some f)
    (literal : String) :
    { s with filter := some ⟨f.column, literal⟩ }.statement.sql = s.statement.sql := by
  simp only [statement, clauses, h]

/-- A request with another literal for the same column reads as the same selection with the
other literal. -/
theorem ofRequest_of_filter {r : Request} {s : Select} (h : ofRequest r = .ok s)
    {filter : Option String} {p q : Equality} (hp : Equality.parse? r.filter = some p)
    (hq : Equality.parse? filter = some q) (hcolumn : q.column = p.column) :
    ∃ f, s.filter = some f ∧
      ofRequest { r with filter } = .ok { s with filter := some ⟨f.column, q.literal⟩ } := by
  obtain ⟨hitems, htable, hjoins, hfilter, horder, hlimit, hoffset⟩ := ofRequest_eq_ok_iff.1 h
  rw [parse?_filter_eq] at hp hq
  obtain ⟨text, htext, hp⟩ := Option.bind_eq_some_iff.1 hp
  obtain ⟨other, hother, hq⟩ := Option.bind_eq_some_iff.1 hq
  rw [htext] at hfilter
  cases hf : s.filter with
  | none =>
      rw [hf] at hfilter
      cases hfilter
  | some f =>
      rw [hf] at hfilter
      cases hfilter with
      | some hread =>
          obtain ⟨p', hp', hf', -⟩ := FilterClause.read_eq_ok_iff.1 hread
          rw [hp] at hp'
          cases hp'
          refine ⟨f, rfl, ofRequest_eq_ok_iff.2
            ⟨hitems, htable, hjoins, ?_, horder, hlimit, hoffset⟩⟩
          rw [hother]
          exact .some (FilterClause.read_eq_ok_iff.2 ⟨q, hq, hcolumn ▸ hf', rfl⟩)

end Select

/-- What a compiled statement keeps apart: the names of its request, the words of the
language, and the literal of the filter. -/
structure KeepsApart (r : Request) (s : Statement) : Prop where
  /-- The double quotes come in pairs. -/
  odd_length : (cut '"' s.sql.toList).length % 2 = 1
  quoted_eq : s.quotedPieces = (names r).flatMap (cut '.')
  quoted_plain : ∀ piece ∈ s.quotedPieces, piece ≠ [] ∧ '"' ∉ piece
  bare_spelled : ∀ piece ∈ s.barePieces, SpelledFrom ("$1" :: vocabulary r.limit r.offset) piece
  /-- A filter leaves its literal beside the text and one reference in it. -/
  filtered : ∀ text, given? r.filter = some text →
    ∃ p, Equality.ofText? text = some p ∧ s.params = [.text p.literal] ∧
      s.barePieces.flatMap placeholders = ["$1".toList]
  unfiltered : given? r.filter = none →
    s.params = [] ∧ s.barePieces.flatMap placeholders = []
  /-- Another literal for the same column gives the same text. -/
  independent : ∀ filter p q, Equality.parse? r.filter = some p →
    Equality.parse? filter = some q → q.column = p.column →
      ∃ s', compile .safe { r with filter } = .ok s' ∧ s'.sql = s.sql ∧
        s'.params = [.text q.literal]

/-- Whatever a request names and compares with, its statement keeps the names in quotes and the
literal beside the text. -/
theorem compile_keepsApart {r : Request} {s : Statement} (h : compile .safe r = .ok s) :
    KeepsApart r s := by
  obtain ⟨sel, hsel, rfl⟩ := map_eq_ok_iff.1 h
  obtain ⟨-, -, -, hfilter, -, hlimit, hoffset⟩ := Select.ofRequest_eq_ok_iff.1 hsel
  have hparts := Select.parts_of_ofRequest hsel
  constructor
  case odd_length =>
    rw [sel.length_pieces_statement]
    omega
  case quoted_eq => rw [sel.quotedPieces_statement, hparts]
  case quoted_plain =>
    intro piece hpiece
    rw [sel.quotedPieces_statement] at hpiece
    have hpart := Select.isPart_of_mem_parts hpiece
    exact ⟨ne_nil_of_isPart hpart, quote_not_mem_of_isPart hpart⟩
  case bare_spelled =>
    intro piece hpiece
    rw [← hlimit, ← hoffset]
    exact Select.spelledFrom_of_mem_barePieces hpiece
  case filtered =>
    intro text htext
    rw [htext] at hfilter
    rw [sel.placeholders_barePieces, Select.statement]
    cases hf : sel.filter with
    | none =>
        rw [hf] at hfilter
        cases hfilter
    | some f =>
        rw [hf] at hfilter
        cases hfilter with
        | some hread =>
            obtain ⟨p, hp, -, hliteral⟩ := FilterClause.read_eq_ok_iff.1 hread
            exact ⟨p, hp, by simp [hliteral], rfl⟩
  case unfiltered =>
    intro hnone
    rw [hnone] at hfilter
    rw [sel.placeholders_barePieces, Select.statement]
    cases hf : sel.filter with
    | none => exact ⟨rfl, rfl⟩
    | some f =>
        rw [hf] at hfilter
        cases hfilter
  case independent =>
    intro filter p q hp hq hcolumn
    obtain ⟨f, hf, hread⟩ := Select.ofRequest_of_filter hsel hp hq hcolumn
    have hcompile : compile .safe { r with filter } =
        .ok { sel with filter := some ⟨f.column, q.literal⟩ }.statement := by
      rw [compile, hread]
      rfl
    exact ⟨_, hcompile, Select.sql_statement_of_filter hf q.literal, rfl⟩

/-- Every clause at once, with a literal that tries to leave its place. -/
def crowdedRequest : Request where
  engine := "relational"
  table := " shop.orders "
  columns := some ["*", "people .*", "note"]
  joins := [⟨"people", "person_id", "id"⟩]
  filter := some "note = x\" OR $1 = \"1\"; --"
  orderBy := some "note desc"
  limit := some 10
  offset := some 0

def crowdedStatement : Statement where
  sql := "SELECT *, \"people\".*, \"note\" FROM \"shop\".\"orders\" INNER JOIN \"people\" ON " ++
    "\"shop\".\"orders\".\"person_id\" = \"people\".\"id\" WHERE \"note\" = $1 " ++
    "ORDER BY \"note\" DESC LIMIT 10 OFFSET 0"
  params := [.text "x\" OR $1 = \"1\"; --"]

theorem compile_crowdedRequest : compile .safe crowdedRequest = .ok crowdedStatement ∧
    KeepsApart crowdedRequest crowdedStatement :=
  ⟨by rfl, compile_keepsApart (by rfl)⟩

end TableQuery.Sql
