import TableQuery.Proofs.Sql.Identifier

/-!
# Statements with and without quotes

Without its double quotes, the statement of a selection is the verbatim statement of the request
that names the same tables and columns in plain form. A request without white space is in that form
already, so its statements in the two modes differ only in quotes.
-/

namespace TableQuery.Sql

open TableQuery.Text

/-- The entry as a request names it. -/
def SelectItem.text : SelectItem → String
  | .all => "*"
  | .allOf table => table.text ++ ".*"
  | .column c => c.text

/-- The join as a request names it. -/
def JoinClause.spec (j : JoinClause) : JoinSpec where
  table := j.table.text
  leftColumn := j.leftColumn.text
  rightColumn := j.rightColumn.text

/-- The filter with its placeholder in place of the literal. -/
def FilterClause.text (f : FilterClause) : String :=
  f.column.text ++ " = " ++ Statement.placeholder 1

/-- The order with its direction spelled out. -/
def OrderClause.text (o : OrderClause) : String :=
  o.column.text ++ (if o.descending then " DESC" else " ASC")

/-- The request whose fragments are those of a selection in plain form. -/
def Select.request (s : Select) : Request where
  engine := "relational"
  table := s.table.text
  columns := some (s.items.map SelectItem.text)
  joins := s.joins.map JoinClause.spec
  filter := s.filter.map FilterClause.text
  orderBy := s.order.map OrderClause.text
  limit := s.limit
  offset := s.offset

theorem SelectItem.unquote_render (i : SelectItem) : unquote i.render = i.text := by
  cases i with
  | all => rfl
  | allOf table =>
      have hstar : unquote ".*" = ".*" := unquote_eq_self (by decide)
      rw [render, text, unquote_append, Identifier.unquote_quoted, hstar]
  | column c => exact c.unquote_quoted

theorem unquote_qualified (table column : Identifier) :
    unquote (qualified table column) = table.text ++ "." ++ column.text := by
  have hdot : unquote "." = "." := unquote_eq_self (by decide)
  rw [qualified, unquote_append, unquote_append, Identifier.unquote_quoted,
    Identifier.unquote_quoted, hdot]

theorem JoinClause.unquote_render (base : Identifier) (j : JoinClause) :
    unquote (j.render base) = Verbatim.renderJoin base.text j.spec := by
  have hjoin : unquote "INNER JOIN " = "INNER JOIN " := unquote_eq_self (by decide)
  have hon : unquote " ON " = " ON " := unquote_eq_self (by decide)
  have hequals : unquote " = " = " = " := unquote_eq_self (by decide)
  have hverbatim : Verbatim.renderJoin base.text j.spec =
      "INNER JOIN " ++ j.table.text ++ " ON " ++ base.text ++ "." ++ j.leftColumn.text ++ " = " ++
        j.table.text ++ "." ++ j.rightColumn.text := rfl
  rw [hverbatim]
  simp only [render, unquote_append, unquote_qualified, Identifier.unquote_quoted, hjoin, hon,
    hequals, String.append_assoc]

theorem FilterClause.unquote_render (f : FilterClause) :
    unquote f.render = "WHERE " ++ f.text := by
  have hwhere : unquote "WHERE " = "WHERE " := unquote_eq_self (by decide)
  have hequals : unquote " = " = " = " := unquote_eq_self (by decide)
  have hplaceholder : unquote (Statement.placeholder 1) = Statement.placeholder 1 := by decide
  simp only [render, text, unquote_append, Identifier.unquote_quoted, hwhere, hequals,
    hplaceholder, String.append_assoc]

theorem OrderClause.unquote_render (o : OrderClause) :
    unquote ("ORDER BY " ++ o.render) = "ORDER BY " ++ o.text := by
  have horder : unquote "ORDER BY " = "ORDER BY " := unquote_eq_self (by decide)
  have hdirection : unquote (if o.descending then " DESC" else " ASC") =
      if o.descending then " DESC" else " ASC" := by
    cases o.descending <;> decide
  rw [render, text, unquote_append, unquote_append, Identifier.unquote_quoted, horder, hdirection]

namespace Verbatim

theorem clauses_eq (r : Request) :
    clauses r =
      ["SELECT " ++ (if r.hasProjection then String.intercalate ", " r.projection else "*"),
        "FROM " ++ r.table] ++ r.joins.map (renderJoin r.table) ++
        (given? r.filter).toList.map ("WHERE " ++ ·) ++
        (given? r.orderBy).toList.map ("ORDER BY " ++ ·) ++
        r.limit.toList.map (fun n => "LIMIT " ++ n.repr) ++
        r.offset.toList.map (fun n => "OFFSET " ++ n.repr) := by
  obtain ⟨engine, table, columns, joins, filter, order, limit, offset, sheet⟩ := r
  simp only [clauses]
  cases given? filter <;> cases given? order <;> cases limit <;> cases offset <;> rfl

end Verbatim

theorem given?_eq_self {text : Option String} (h : ∀ s ∈ text, isBlankText s = false) :
    given? text = text := by
  cases text with
  | none => rfl
  | some s => simp [given?, Option.filter, h s rfl]

theorem isBlankText_append_right {s t : String} (h : isBlankText t = false) :
    isBlankText (s ++ t) = false := by
  rw [isBlankText] at h ⊢
  rw [String.toList_append, List.all_append, h, Bool.and_false]

namespace Select

theorem unquote_renderItems (items : List SelectItem) :
    unquote (renderItems items) =
      if items.isEmpty then "*" else String.intercalate ", " (items.map SelectItem.text) := by
  rw [renderItems]
  split_ifs with hitems
  · rfl
  · rw [unquote_intercalate, List.map_map]
    have hmap : items.map (unquote ∘ SelectItem.render) = items.map SelectItem.text :=
      List.map_congr_left fun i _ => i.unquote_render
    rw [hmap]
    rfl

theorem projection_request (s : Select) : s.request.projection = s.items.map SelectItem.text := rfl

theorem given?_filter_request (s : Select) : given? s.request.filter = s.request.filter := by
  refine given?_eq_self fun text htext => ?_
  obtain ⟨f, -, rfl⟩ := Option.map_eq_some_iff.1 htext
  exact isBlankText_append_right (by decide)

theorem given?_orderBy_request (s : Select) : given? s.request.orderBy = s.request.orderBy := by
  refine given?_eq_self fun text htext => ?_
  obtain ⟨o, -, rfl⟩ := Option.map_eq_some_iff.1 htext
  cases hdescending : o.descending <;>
    rw [OrderClause.text, hdescending] <;> exact isBlankText_append_right (by decide)

theorem unquote_bound {keyword : String} (h : '"' ∉ keyword.toList) (n : Nat) :
    unquote (keyword ++ n.repr) = keyword ++ n.repr := by
  refine unquote_eq_self ?_
  rw [String.toList_append, List.mem_append, not_or]
  exact ⟨h, not_mem_repr (by decide) n⟩

theorem map_unquote_clauses (s : Select) : s.clauses.map unquote = Verbatim.clauses s.request := by
  have hselect : unquote ("SELECT " ++ renderItems s.items) = "SELECT " ++
      (if s.request.hasProjection then String.intercalate ", " s.request.projection else "*") := by
    rw [unquote_append, unquote_renderItems, Request.hasProjection, projection_request,
      List.isEmpty_map]
    cases s.items.isEmpty <;> rfl
  have hfrom : unquote ("FROM " ++ s.table.quoted) = "FROM " ++ s.request.table := by
    rw [unquote_append, Identifier.unquote_quoted]
    rfl
  have hjoins : s.joins.map (unquote ∘ JoinClause.render s.table) =
      s.request.joins.map (Verbatim.renderJoin s.request.table) := by
    rw [request, List.map_map]
    exact List.map_congr_left fun j _ => j.unquote_render s.table
  have hfilter : s.filter.toList.map (unquote ∘ FilterClause.render) =
      s.request.filter.toList.map ("WHERE " ++ ·) := by
    rw [request, Option.toList_map, List.map_map]
    exact List.map_congr_left fun f _ => f.unquote_render
  have horder : s.order.toList.map (unquote ∘ fun o => "ORDER BY " ++ o.render) =
      s.request.orderBy.toList.map ("ORDER BY " ++ ·) := by
    rw [request, Option.toList_map, List.map_map]
    exact List.map_congr_left fun o _ => o.unquote_render
  have hlimit : s.limit.toList.map (unquote ∘ fun n => "LIMIT " ++ n.repr) =
      s.request.limit.toList.map fun n => "LIMIT " ++ n.repr :=
    List.map_congr_left fun n _ => unquote_bound (by decide) n
  have hoffset : s.offset.toList.map (unquote ∘ fun n => "OFFSET " ++ n.repr) =
      s.request.offset.toList.map fun n => "OFFSET " ++ n.repr :=
    List.map_congr_left fun n _ => unquote_bound (by decide) n
  rw [clauses_eq, Verbatim.clauses_eq, given?_filter_request, given?_orderBy_request]
  simp only [List.map_append, List.map_cons, List.map_nil, List.map_map, hselect, hfrom, hjoins,
    hfilter, horder, hlimit, hoffset]

/-- Only the quotes tell the statement of a selection from the verbatim one. -/
theorem unquote_sql_statement (s : Select) :
    unquote s.statement.sql = (Verbatim.statement s.request).sql := by
  rw [statement, unquote_intercalate, map_unquote_clauses]
  rfl

end Select

/-- A request whose names have no white space, which has no filter, and whose order is a column and
a direction in capitals with one blank between them. -/
structure Unspaced (r : Request) : Prop where
  table : NoBlank r.table
  joins : ∀ j ∈ r.joins, NoBlank j.table ∧ NoBlank j.leftColumn ∧ NoBlank j.rightColumn
  columns : ∀ s ∈ r.projection, NoBlank s
  filter : ∀ s ∈ r.filter, isBlankText s = true
  order : ∀ s ∈ r.orderBy, isBlankText s = true ∨
    ∃ column direction, column ≠ "" ∧ NoBlank column ∧ (direction = "ASC" ∨ direction = "DESC") ∧
      s = column ++ " " ++ direction

theorem Identifier.text_of_noBlank {field value : String} {i : Identifier}
    (h : read field value = .ok i) (hvalue : NoBlank value) : i.text = value := by
  rw [text_of_read h, trim_eq_self hvalue]

theorem SelectItem.text_of_noBlank {s : String} {i : SelectItem} (h : SelectItem.read s = .ok i)
    (hs : NoBlank s) : i.text = s := by
  rw [SelectItem.read, trimChars_eq_toList hs] at h
  by_cases hall : s.toList = ['*']
  · rw [if_pos hall] at h
    cases h
    rw [← String.toList_inj, hall]
    rfl
  · rw [if_neg hall] at h
    by_cases hsuffix : ['.', '*'].isSuffixOf s.toList = true
    · rw [if_pos hsuffix] at h
      obtain ⟨table, htable, rfl⟩ := map_eq_ok_iff.1 h
      obtain ⟨t, ht⟩ := List.isSuffixOf_iff_suffix.1 hsuffix
      have htake : s.toList.take (s.toList.length - 2) = t := by simp [← ht]
      have hblank : NoBlank (String.ofList t) := by
        intro c hc
        rw [String.toList_ofList] at hc
        exact hs c (ht ▸ List.mem_append_left _ hc)
      rw [htake] at htable
      rw [text, Identifier.text_of_noBlank htable hblank, ← String.toList_inj,
        String.toList_append, String.toList_ofList, ← ht]
      rfl
    · rw [if_neg hsuffix, String.ofList_toList] at h
      obtain ⟨column, hcolumn, rfl⟩ := map_eq_ok_iff.1 h
      exact Identifier.text_of_noBlank hcolumn hs

theorem JoinClause.spec_of_noBlank {base : String} {spec : JoinSpec} {j : JoinClause}
    (h : JoinClause.read base spec = .ok j) (hspec : NoBlank spec.table ∧
      NoBlank spec.leftColumn ∧ NoBlank spec.rightColumn) : j.spec = spec := by
  obtain ⟨htable, -, hleft, hright⟩ := JoinClause.read_eq_ok_iff.1 h
  obtain ⟨htable', hleft', hright'⟩ := hspec
  rw [JoinClause.spec, Identifier.text_of_noBlank htable htable',
    Identifier.text_of_noBlank hleft hleft', Identifier.text_of_noBlank hright hright']

theorem OrderClause.text_of_noBlank {column direction : String} {o : OrderClause}
    (h : OrderClause.read (column ++ " " ++ direction) = .ok o) (hne : column ≠ "")
    (hcolumn : NoBlank column) (hdirection : direction = "ASC" ∨ direction = "DESC") :
    o.text = column ++ " " ++ direction := by
  have hwords : words (column ++ " " ++ direction) = [column, direction] := by
    rcases hdirection with rfl | rfl <;>
      exact words_append hcolumn hne (by decide) (by decide)
  obtain ⟨p, hp, -, hread, hdescending⟩ := OrderClause.read_eq_ok_iff.1 h
  rw [SortOrder.ofText?, hwords, Option.some.injEq] at hp
  subst hp
  rw [text, Identifier.text_of_noBlank hread hcolumn, hdescending, String.append_assoc]
  rcases hdirection with rfl | rfl
  · have hascending : (upper "ASC" == "DESC") = false := by decide
    simp only [hascending, Bool.false_eq_true, if_false]
    rfl
  · have hdown : (upper "DESC" == "DESC") = true := by decide
    simp only [hdown, if_true]
    rfl

theorem map_eq_of_forall₂ {α β : Type} {p : α → β → Prop} {f : β → α} {xs : List α} {ys : List β}
    (h : List.Forall₂ p xs ys) (hf : ∀ x ∈ xs, ∀ y, p x y → f y = x) : ys.map f = xs := by
  induction h with
  | nil => rfl
  | cons hxy _ ih =>
      rw [List.forall_mem_cons] at hf
      rw [List.map_cons, hf.1 _ hxy, ih hf.2]

theorem map_eq_of_optionRel {α β : Type} {p : α → β → Prop} {f : β → α} {x : Option α}
    {y : Option β} (h : Option.Rel p x y) (hf : ∀ a ∈ x, ∀ b, p a b → f b = a) : y.map f = x := by
  cases h with
  | none => rfl
  | some hab => rw [Option.map_some, hf _ rfl _ hab]

theorem given?_eq_none {text : Option String} (h : ∀ s ∈ text, isBlankText s = true) :
    given? text = none := by
  cases text with
  | none => rfl
  | some s => simp [given?, Option.filter, h s rfl]

/-- A request without white space is the plain form of its selection. -/
theorem Verbatim.clauses_request {r : Request} {s : Select} (h : Select.ofRequest r = .ok s)
    (hr : Unspaced r) : clauses s.request = clauses r := by
  obtain ⟨hitems, htable, hjoins, hfilter, horder, hlimit, hoffset⟩ :=
    Select.ofRequest_eq_ok_iff.1 h
  have hnames : s.request.projection = r.projection :=
    map_eq_of_forall₂ hitems fun text htext i hi =>
      SelectItem.text_of_noBlank hi (hr.columns text htext)
  have hbase : s.request.table = r.table := Identifier.text_of_noBlank htable hr.table
  have hspecs : s.request.joins = r.joins :=
    map_eq_of_forall₂ hjoins fun spec hspec j hj =>
      JoinClause.spec_of_noBlank hj (hr.joins spec hspec)
  have hwhere : s.request.filter = given? r.filter := by
    rw [given?_eq_none hr.filter] at hfilter ⊢
    exact map_eq_of_optionRel (f := FilterClause.text) hfilter (by simp)
  have hordered : s.request.orderBy = given? r.orderBy := by
    refine map_eq_of_optionRel horder fun text htext o ho => ?_
    obtain ⟨htext, hblank⟩ := Option.filter_eq_some_iff.1 htext
    rcases hr.order text htext with hall | ⟨column, direction, hne, hcolumn, hdirection, rfl⟩
    · rw [hall] at hblank
      cases hblank
    · exact OrderClause.text_of_noBlank ho hne hcolumn hdirection
  rw [clauses_eq, clauses_eq, s.given?_filter_request, s.given?_orderBy_request, hwhere, hordered,
    Request.hasProjection, Request.hasProjection, hnames, hbase, hspecs]
  rw [← hlimit, ← hoffset]
  rfl

/-- Where there is nothing to trim, the raw mode gives the statement of the safe mode without its
quotes, and neither has parameters. -/
theorem compile_raw_of_safe {r : Request} {s : Statement} (h : compile .safe r = .ok s)
    (hr : Unspaced r) : s.params = [] ∧ compile .raw r = .ok ⟨unquote s.sql, []⟩ := by
  obtain ⟨sel, hsel, rfl⟩ := map_eq_ok_iff.1 h
  have hnone : Equality.parse? r.filter = none := by
    rw [parse?_filter_eq, given?_eq_none hr.filter]
    rfl
  refine ⟨by rw [Select.params_of_ofRequest hsel, hnone]; rfl, ?_⟩
  rw [Select.unquote_sql_statement, compile, Verbatim.statement, Verbatim.statement,
    Verbatim.clauses_request hsel hr]

/-- Every clause but the filter, which is blank. -/
def unspacedRequest : Request where
  engine := "relational"
  table := "shop.orders"
  columns := some ["*", "people.*", "note"]
  joins := [⟨"people", "person_id", "id"⟩, ⟨"main.tags", "tag", "label"⟩]
  filter := some " "
  orderBy := some "people.note DESC"
  limit := some 10
  offset := some 0

theorem unspaced_unspacedRequest : Unspaced unspacedRequest := by
  constructor
  case table => decide
  case joins => decide
  case columns => decide
  case filter => decide
  case order =>
    intro s hs
    cases hs
    exact .inr ⟨"people.note", "DESC", by decide, by decide, .inr rfl, rfl⟩

def unspacedSql : String :=
  "SELECT *, people.*, note FROM shop.orders " ++
    "INNER JOIN people ON shop.orders.person_id = people.id " ++
    "INNER JOIN main.tags ON shop.orders.tag = main.tags.label " ++
    "ORDER BY people.note DESC LIMIT 10 OFFSET 0"

set_option maxRecDepth 2000 in
theorem compile_raw_unspacedRequest :
    ∃ s, (compile .safe unspacedRequest = .ok s ∧ Unspaced unspacedRequest) ∧ s.params = [] ∧
      unquote s.sql = unspacedSql ∧ compile .raw unspacedRequest = .ok ⟨unspacedSql, []⟩ := by
  have hverbatim : compile .raw unspacedRequest = .ok ⟨unspacedSql, []⟩ := by rfl
  obtain ⟨s, hs⟩ : ∃ s, compile .safe unspacedRequest = .ok s := ⟨_, rfl⟩
  obtain ⟨hparams, hraw⟩ := compile_raw_of_safe hs unspaced_unspacedRequest
  have hsql : unquote s.sql = unspacedSql :=
    congrArg Statement.sql (Except.ok.inj (hraw.symm.trans hverbatim))
  exact ⟨s, ⟨hs, unspaced_unspacedRequest⟩, hparams, hsql, hverbatim⟩

end TableQuery.Sql
