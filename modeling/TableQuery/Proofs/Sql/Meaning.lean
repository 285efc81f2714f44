import TableQuery.Proofs.Sql.Decoding
import TableQuery.Proofs.Sql.Name

/-!
# The meaning of a request

What a request asks for does not depend on the white space around its names, nor on how its
filter and its order are spelled. Two requests compile to the same statement exactly when they
ask for the same.
-/

namespace TableQuery.Text

theorem not_isBlank_of_mem_wordsFrom {cur s w : List Char} (hcur : ∀ c ∈ cur, isBlank c = false)
    (hw : w ∈ wordsFrom cur s) : ∀ c ∈ w, isBlank c = false := by
  have hreverse : ∀ c ∈ cur.reverse, isBlank c = false := fun c hc =>
    hcur c (List.mem_reverse.1 hc)
  induction s generalizing cur with
  | nil =>
      rw [wordsFrom] at hw
      split at hw
      · exact absurd hw List.not_mem_nil
      · rw [List.mem_singleton.1 hw]
        exact hreverse
  | cons c s ih =>
      have hnil : ∀ c ∈ ([] : List Char), isBlank c = false := fun _ h => absurd h List.not_mem_nil
      rw [wordsFrom] at hw
      split_ifs at hw with hc hempty
      · exact ih hnil hw hnil
      · rcases List.mem_cons.1 hw with rfl | hw
        · exact hreverse
        · exact ih hnil hw hnil
      · have hnext : ∀ d ∈ c :: cur, isBlank d = false := by
          rw [List.forall_mem_cons]
          exact ⟨by simpa using hc, hcur⟩
        exact ih hnext hw fun d hd => hnext d (List.mem_reverse.1 hd)

theorem trim_of_mem_words {s w : String} (h : w ∈ words s) : trim w = w := by
  obtain ⟨chars, hchars, rfl⟩ := List.mem_map.1 h
  have hblank : ∀ c ∈ chars, isBlank c = false :=
    not_isBlank_of_mem_wordsFrom (fun _ h => absurd h List.not_mem_nil) hchars
  rw [trim, trimChars, String.toList_ofList, stripBy_eq_self hblank]

end TableQuery.Text

namespace TableQuery

open TableQuery.Text

attribute [ext] Equality SortOrder

theorem Equality.trim_column {s : String} {p : Equality} (h : ofText? s = some p) :
    trim p.column = p.column := by
  rw [ofText?, tokens] at h
  split_ifs at h
  rcases hcut : cutFirst '=' s.toList with ⟨left, _ | right⟩ <;>
    simp only [hcut, Option.some.injEq, reduceCtorEq] at h
  rw [← h, trim, trimChars, String.toList_ofList, stripBy_stripBy]

theorem SortOrder.trim_column {s : String} {o : SortOrder} (h : ofText? s = some o) :
    trim o.column = o.column := by
  have hmem : o.column ∈ words s := by
    rw [ofText?] at h
    split at h
    · cases h
    · next hwords =>
        cases h
        simp [hwords]
    · next hwords =>
        cases h
        simp [hwords]
  exact trim_of_mem_words hmem

/-- A join with its names trimmed. -/
def JoinSpec.trimmed (j : JoinSpec) : JoinSpec :=
  ⟨trim j.table, trim j.leftColumn, trim j.rightColumn⟩

namespace Sql

/-- Two requests ask for the same. -/
structure SameMeaning (r q : Request) : Prop where
  entries_eq : entries r = entries q
  table_eq : trim r.table = trim q.table
  joins_eq : r.joins.map JoinSpec.trimmed = q.joins.map JoinSpec.trimmed
  filter_eq : Equality.parse? r.filter = Equality.parse? q.filter
  order_eq : SortOrder.parse? r.orderBy = SortOrder.parse? q.orderBy
  limit_eq : r.limit = q.limit
  offset_eq : r.offset = q.offset

theorem quoteName_trim (s : String) : quoteName (trim s) = quoteName s :=
  quoteName_ofList_trimChars s

theorem map_joinText_trimmed (base : String) (joins : List JoinSpec) :
    (joins.map JoinSpec.trimmed).map (joinText (trim base)) = joins.map (joinText base) := by
  rw [List.map_map]
  refine List.map_congr_left fun j _ => ?_
  simp only [Function.comp_apply, joinText, JoinSpec.trimmed, quoteName_trim]

/-- Requests that ask for the same have the same clauses. -/
theorem SameMeaning.clauseTexts_eq {r q : Request} (h : SameMeaning r q) :
    clauseTexts r = clauseTexts q := by
  have htable : quoteName r.table = quoteName q.table := by
    rw [← quoteName_trim, h.table_eq, quoteName_trim]
  have hjoins : r.joins.map (joinText r.table) = q.joins.map (joinText q.table) := by
    rw [← map_joinText_trimmed, h.table_eq, h.joins_eq, map_joinText_trimmed]
  rw [clauseTexts, clauseTexts, hjoins, h.entries_eq, htable, h.filter_eq, h.order_eq, h.limit_eq,
    h.offset_eq]

/-- Two texts that are read as the same identifier agree up to white space around them. -/
theorem Identifier.trim_eq_of_read {field field' a b : String} {i : Identifier}
    (ha : Identifier.read field a = .ok i) (hb : Identifier.read field' b = .ok i) :
    trim a = trim b := by
  have hcut : cut '.' (trimChars a) = cut '.' (trimChars b) := by
    rw [← parts_of_read ha, ← parts_of_read hb]
  rw [trim, ← intercalate_cut '.' (trimChars a), hcut, intercalate_cut, trim]

theorem JoinClause.trimmed_eq_of_read {base base' : String} {a b : JoinSpec} {j : JoinClause}
    (ha : JoinClause.read base a = .ok j) (hb : JoinClause.read base' b = .ok j) :
    a.trimmed = b.trimmed := by
  obtain ⟨htable, -, hleft, hright⟩ := read_eq_ok_iff.1 ha
  obtain ⟨htable', -, hleft', hright'⟩ := read_eq_ok_iff.1 hb
  rw [JoinSpec.trimmed, JoinSpec.trimmed, Identifier.trim_eq_of_read htable htable',
    Identifier.trim_eq_of_read hleft hleft', Identifier.trim_eq_of_read hright hright']

theorem FilterClause.ofText?_eq_of_read {a b : Option String} {f : Option FilterClause}
    (ha : Option.Rel (fun text f => FilterClause.read text = .ok f) a f)
    (hb : Option.Rel (fun text f => FilterClause.read text = .ok f) b f) :
    a.bind Equality.ofText? = b.bind Equality.ofText? := by
  cases ha with
  | none => cases hb with | none => rfl
  | some ha =>
      cases hb with
      | some hb =>
          obtain ⟨p, hp, hcolumn, hliteral⟩ := read_eq_ok_iff.1 ha
          obtain ⟨q, hq, hcolumn', hliteral'⟩ := read_eq_ok_iff.1 hb
          have htrim := Identifier.trim_eq_of_read hcolumn hcolumn'
          rw [Equality.trim_column hp, Equality.trim_column hq] at htrim
          have heq : p = q := Equality.ext htrim (hliteral.symm.trans hliteral')
          rw [Option.bind_some, Option.bind_some, hp, hq, heq]

theorem OrderClause.ofText?_eq_of_read {a b : Option String} {c : Option OrderClause}
    (ha : Option.Rel (fun text o => OrderClause.read text = .ok o) a c)
    (hb : Option.Rel (fun text o => OrderClause.read text = .ok o) b c) :
    a.bind SortOrder.ofText? = b.bind SortOrder.ofText? := by
  cases ha with
  | none => cases hb with | none => rfl
  | some ha =>
      cases hb with
      | some hb =>
          obtain ⟨o, ho, -, hcolumn, hdescending⟩ := read_eq_ok_iff.1 ha
          obtain ⟨o', ho', -, hcolumn', hdescending'⟩ := read_eq_ok_iff.1 hb
          have htrim := Identifier.trim_eq_of_read hcolumn hcolumn'
          rw [SortOrder.trim_column ho, SortOrder.trim_column ho'] at htrim
          have heq : o = o' := SortOrder.ext htrim (hdescending.symm.trans hdescending')
          rw [Option.bind_some, Option.bind_some, ho, ho', heq]

theorem Select.entries_of_ofRequest {r : Request} {s : Select} (h : Select.ofRequest r = .ok s) :
    s.shownItems.map SelectItem.render = entries r := by
  obtain ⟨hitems, -⟩ := ofRequest_eq_ok_iff.1 h
  have hrender := SelectItem.map_render_of_read hitems
  rw [shownItems, entries]
  generalize r.projection = texts, s.items = items at hitems hrender ⊢
  cases hitems with
  | nil => rfl
  | cons hitem hitems => exact hrender

/-- Two requests compile to one statement exactly when they ask for the same. -/
theorem compile_eq_iff_sameMeaning {r q : Request} {s t : Statement}
    (hs : compile .safe r = .ok s) (ht : compile .safe q = .ok t) :
    (s.sql = t.sql ∧ s.params = t.params) ↔ SameMeaning r q := by
  obtain ⟨sel, hsel, rfl⟩ := map_eq_ok_iff.1 hs
  obtain ⟨⟨items, table, joins, filter, order, limit, offset⟩, htel, rfl⟩ := map_eq_ok_iff.1 ht
  constructor
  · rintro ⟨hsql, hparams⟩
    obtain ⟨hitems, hrest⟩ := Select.eq_of_statement_eq hsql hparams
    have hentries := congrArg (List.map SelectItem.render) hitems
    rw [Select.entries_of_ofRequest hsel, Select.entries_of_ofRequest htel] at hentries
    obtain ⟨-, htable, hjoins, hfilter, horder, hlimit, hoffset⟩ :=
      Select.ofRequest_eq_ok_iff.1 hsel
    obtain ⟨-, htable', hjoins', hfilter', horder', hlimit', hoffset'⟩ :=
      Select.ofRequest_eq_ok_iff.1 htel
    cases hrest
    constructor
    case entries_eq => exact hentries
    case table_eq => exact Identifier.trim_eq_of_read htable htable'
    case joins_eq =>
      exact map_eq_of_forall₂ hjoins hjoins' fun _ _ _ => JoinClause.trimmed_eq_of_read
    case filter_eq =>
      rw [parse?_filter_eq, parse?_filter_eq]
      exact FilterClause.ofText?_eq_of_read hfilter hfilter'
    case order_eq =>
      rw [parse?_order_eq, parse?_order_eq]
      exact OrderClause.ofText?_eq_of_read horder horder'
    case limit_eq => exact hlimit.symm.trans hlimit'
    case offset_eq => exact hoffset.symm.trans hoffset'
  · intro h
    constructor
    · rw [Select.statement, Select.statement, Select.clauses_of_ofRequest hsel,
        Select.clauses_of_ofRequest htel, h.clauseTexts_eq]
    · rw [Select.params_of_ofRequest hsel, Select.params_of_ofRequest htel, h.filter_eq]

/-- Names with several parts, written without any room. -/
def tightRequest : Request where
  engine := "relational"
  table := "shop.orders"
  joins := [⟨"people", "shop.person", "id"⟩]
  filter := some "people.name=x"
  orderBy := some "id"
  limit := some 10

def looseRequest : Request where
  engine := "relational"
  table := " shop.orders "
  columns := some ["*"]
  joins := [⟨"people ", " shop.person", "id\t"⟩]
  filter := some "people.name = 'x'"
  orderBy := some " id  asc "
  limit := some 10

def sharedStatement : Statement where
  sql := "SELECT * FROM \"shop\".\"orders\" INNER JOIN \"people\" ON " ++
    "\"shop\".\"orders\".\"shop\".\"person\" = \"people\".\"id\" " ++
    "WHERE \"people\".\"name\" = $1 ORDER BY \"id\" ASC LIMIT 10"
  params := [.text "x"]

theorem sameMeaning_tight_loose : compile .safe tightRequest = .ok sharedStatement ∧
    compile .safe looseRequest = .ok sharedStatement ∧ SameMeaning tightRequest looseRequest :=
  ⟨by rfl, by rfl, (compile_eq_iff_sameMeaning (by rfl) (by rfl)).1
    ⟨Eq.refl sharedStatement.sql, Eq.refl sharedStatement.params⟩⟩

end Sql

end TableQuery
