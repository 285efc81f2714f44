import TableQuery.Proofs.Sql.Reading
import TableQuery.Sql.Compile

/-!
# The clauses that a request asks for

Every clause of a compiled statement can be read off the request: its names are the trimmed names
of the request with each part in double quotes, and a filter or an order is the one that its text
denotes. A statement consists of these clauses, each once, in a fixed order.
-/

namespace TableQuery.Sql

open TableQuery.Text

/-- A name as it stands in a statement. -/
def quoteName (s : String) : String :=
  String.ofList (List.intercalate ['.'] ((cut '.' (trimChars s)).map Identifier.quotePart))

/-- An entry of the projection as it stands in a statement. -/
def quoteEntry (s : String) : String :=
  let body := trimChars s
  if body = ['*'] then "*"
  else if ['.', '*'].isSuffixOf body then
    quoteName (String.ofList (body.take (body.length - 2))) ++ ".*"
  else quoteName s

/-- The entries of the projection, a star when every column is wanted. -/
def entries (r : Request) : List String :=
  if r.projection.isEmpty then ["*"] else r.projection.map quoteEntry

def joinText (base : String) (j : JoinSpec) : String :=
  "INNER JOIN " ++ quoteName j.table ++ " ON " ++
    (quoteName base ++ "." ++ quoteName j.leftColumn) ++ " = " ++
    (quoteName j.table ++ "." ++ quoteName j.rightColumn)

def filterText (p : Equality) : String :=
  "WHERE " ++ quoteName p.column ++ " = " ++ Statement.placeholder 1

def orderText (o : SortOrder) : String :=
  "ORDER BY " ++ (quoteName o.column ++ " " ++ o.direction)

/-- The clauses of a request: one for the projection, one for the base table, one for every join,
and one for each of filter, order, limit and offset that is there. -/
def clauseTexts (r : Request) : List String :=
  ["SELECT " ++ String.intercalate ", " (entries r), "FROM " ++ quoteName r.table] ++
    r.joins.map (joinText r.table) ++ (Equality.parse? r.filter).toList.map filterText ++
    (SortOrder.parse? r.orderBy).toList.map orderText ++
    r.limit.toList.map (fun n => "LIMIT " ++ n.repr) ++
    r.offset.toList.map (fun n => "OFFSET " ++ n.repr)

theorem quoteName_ofList_trimChars (s : String) :
    quoteName (String.ofList (trimChars s)) = quoteName s := by
  rw [quoteName, trimChars_ofList_trimChars, quoteName]

theorem Identifier.quoted_of_read {field value : String} {i : Identifier}
    (h : Identifier.read field value = .ok i) : i.quoted = quoteName value := by
  rw [quoted, parts_of_read h, quoteName]

theorem SelectItem.render_of_read {s : String} {i : SelectItem} (h : SelectItem.read s = .ok i) :
    i.render = quoteEntry s := by
  rw [SelectItem.read] at h
  rw [quoteEntry]
  by_cases hall : trimChars s = ['*']
  · rw [if_pos hall] at h ⊢
    cases h
    rfl
  · rw [if_neg hall] at h ⊢
    by_cases hsuffix : ['.', '*'].isSuffixOf (trimChars s) = true
    · rw [if_pos hsuffix] at h ⊢
      obtain ⟨table, htable, rfl⟩ := map_eq_ok_iff.1 h
      rw [render, Identifier.quoted_of_read htable]
    · rw [if_neg hsuffix] at h ⊢
      obtain ⟨column, hcolumn, rfl⟩ := map_eq_ok_iff.1 h
      rw [render, Identifier.quoted_of_read hcolumn, quoteName_ofList_trimChars]

theorem SelectItem.map_render_of_read {texts : List String} {items : List SelectItem}
    (h : List.Forall₂ (fun text i => SelectItem.read text = .ok i) texts items) :
    items.map render = texts.map quoteEntry := by
  induction h with
  | nil => rfl
  | cons hitem _ ih => rw [List.map_cons, List.map_cons, ih, render_of_read hitem]

/-- The parts of a join are read from its fields, and the base table has to be readable. -/
theorem JoinClause.read_eq_ok_iff {base : String} {spec : JoinSpec} {j : JoinClause} :
    JoinClause.read base spec = .ok j ↔
      Identifier.read "table" spec.table = .ok j.table ∧
      (∃ table, Identifier.read "table" base = .ok table) ∧
      Identifier.read "column" spec.leftColumn = .ok j.leftColumn ∧
      Identifier.read "column" spec.rightColumn = .ok j.rightColumn := by
  constructor
  · intro h
    obtain ⟨table, htable, h⟩ := bind_eq_ok_iff.1 h
    obtain ⟨base', hbase, h⟩ := bind_eq_ok_iff.1 h
    obtain ⟨left, hleft, h⟩ := bind_eq_ok_iff.1 h
    obtain ⟨right, hright, h⟩ := bind_eq_ok_iff.1 h
    cases h
    exact ⟨htable, ⟨base', hbase⟩, hleft, hright⟩
  · obtain ⟨table, left, right⟩ := j
    rintro ⟨htable, ⟨base', hbase⟩, hleft, hright⟩
    simp only [JoinClause.read, htable, hbase, hleft, hright]
    rfl

theorem JoinClause.render_of_read {base : String} {table : Identifier} {spec : JoinSpec}
    {j : JoinClause} (htable : Identifier.read "table" base = .ok table)
    (h : JoinClause.read base spec = .ok j) : j.render table = joinText base spec := by
  obtain ⟨hjoined, -, hleft, hright⟩ := read_eq_ok_iff.1 h
  rw [render, qualified, qualified, Identifier.quoted_of_read htable,
    Identifier.quoted_of_read hjoined, Identifier.quoted_of_read hleft,
    Identifier.quoted_of_read hright, joinText]

/-- The filter as it stands in a statement. -/
def FilterClause.render (f : FilterClause) : String :=
  "WHERE " ++ f.column.quoted ++ " = " ++ Statement.placeholder 1

theorem FilterClause.map_render_of_read {text : Option String} {filter : Option FilterClause}
    (h : Option.Rel (fun text f => FilterClause.read text = .ok f) text filter) :
    filter.toList.map render = (text.bind Equality.ofText?).toList.map filterText := by
  cases h with
  | none => rfl
  | some hread =>
      obtain ⟨p, hp, hcolumn, -⟩ := read_eq_ok_iff.1 hread
      simp [hp, render, filterText, Identifier.quoted_of_read hcolumn]

theorem FilterClause.map_literal_of_read {text : Option String} {filter : Option FilterClause}
    (h : Option.Rel (fun text f => FilterClause.read text = .ok f) text filter) :
    filter.toList.map literal = (text.bind Equality.ofText?).toList.map Equality.literal := by
  cases h with
  | none => rfl
  | some hread =>
      obtain ⟨p, hp, -, hliteral⟩ := read_eq_ok_iff.1 hread
      simp [hp, hliteral]

theorem OrderClause.map_render_of_read {text : Option String} {order : Option OrderClause}
    (h : Option.Rel (fun text o => OrderClause.read text = .ok o) text order) :
    order.toList.map (fun o => "ORDER BY " ++ o.render) =
      (text.bind SortOrder.ofText?).toList.map orderText := by
  cases h with
  | none => rfl
  | @some text c hread =>
      obtain ⟨o, ho, -, hcolumn, hdescending⟩ := read_eq_ok_iff.1 hread
      simp only [Option.bind_some, ho, Option.toList_some, List.map_cons, List.map_nil, render,
        orderText, Identifier.quoted_of_read hcolumn, hdescending, SortOrder.direction]
      cases o.descending <;> simp [String.append_assoc]

namespace Select

theorem clauses_eq (s : Select) :
    s.clauses = ["SELECT " ++ renderItems s.items, "FROM " ++ s.table.quoted] ++
      s.joins.map (JoinClause.render s.table) ++ s.filter.toList.map FilterClause.render ++
      s.order.toList.map (fun o => "ORDER BY " ++ o.render) ++
      s.limit.toList.map (fun n => "LIMIT " ++ n.repr) ++
      s.offset.toList.map (fun n => "OFFSET " ++ n.repr) := by
  obtain ⟨items, table, joins, filter, order, limit, offset⟩ := s
  cases filter <;> cases order <;> cases limit <;> cases offset <;> rfl

theorem renderItems_of_read {texts : List String} {items : List SelectItem}
    (h : List.Forall₂ (fun text i => SelectItem.read text = .ok i) texts items) :
    renderItems items =
      String.intercalate ", " (if texts.isEmpty then ["*"] else texts.map quoteEntry) := by
  have hrender := SelectItem.map_render_of_read h
  cases h with
  | nil => rfl
  | cons hitem hitems =>
      simp only [renderItems, List.isEmpty_cons, Bool.false_eq_true, if_false, hrender]

theorem map_render_of_read {base : String} {table : Identifier} {specs : List JoinSpec}
    {joins : List JoinClause} (htable : Identifier.read "table" base = .ok table)
    (h : List.Forall₂ (fun spec j => JoinClause.read base spec = .ok j) specs joins) :
    joins.map (JoinClause.render table) = specs.map (joinText base) := by
  induction h with
  | nil => rfl
  | cons hjoin _ ih => rw [List.map_cons, List.map_cons, ih, JoinClause.render_of_read htable hjoin]

/-- The clauses of a selection are those that its request asks for. -/
theorem clauses_of_ofRequest {r : Request} {s : Select} (h : ofRequest r = .ok s) :
    s.clauses = clauseTexts r := by
  obtain ⟨hitems, htable, hjoins, hfilter, horder, hlimit, hoffset⟩ := ofRequest_eq_ok_iff.1 h
  rw [clauses_eq, clauseTexts, renderItems_of_read hitems, Identifier.quoted_of_read htable,
    map_render_of_read htable hjoins, FilterClause.map_render_of_read hfilter,
    OrderClause.map_render_of_read horder, hlimit, hoffset, entries, parse?_filter_eq,
    parse?_order_eq]

theorem params_of_ofRequest {r : Request} {s : Select} (h : ofRequest r = .ok s) :
    s.statement.params = (Equality.parse? r.filter).toList.map fun p => .text p.literal := by
  obtain ⟨-, -, -, hfilter, -, -, -⟩ := ofRequest_eq_ok_iff.1 h
  have hliterals := congrArg (List.map Datum.text) (FilterClause.map_literal_of_read hfilter)
  rw [List.map_map, List.map_map, ← parse?_filter_eq, ← Option.toList_map] at hliterals
  exact hliterals

end Select

end TableQuery.Sql
