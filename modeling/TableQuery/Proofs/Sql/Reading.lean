import TableQuery.Proofs.Reading
import TableQuery.Proofs.Sql.Rendering
import TableQuery.Proofs.Text.Blank

/-!
# What a selection says about its request

A selection is read from a request clause by clause. Its identifiers are the trimmed names of
the request, in the order of the statement, cut at their dots; its filter literal is that of
the filter text.
-/

namespace TableQuery.Text

theorem wordsFrom_nil_of_blank {s : List Char} (h : ∀ c ∈ s, isBlank c = true) :
    wordsFrom [] s = [] := by
  induction s with
  | nil => rfl
  | cons c s ih =>
      rw [wordsFrom, if_pos (h c List.mem_cons_self), ih fun d hd => h d (List.mem_cons_of_mem c hd)]
      rfl

end TableQuery.Text

namespace TableQuery.Sql

open TableQuery.Text

/-- The name in an entry of the projection; `*` has none. -/
def itemName? (s : String) : Option (List Char) :=
  let body := trimChars s
  if body = ['*'] then none
  else if ['.', '*'].isSuffixOf body then
    some (trimChars (String.ofList (body.take (body.length - 2))))
  else some body

/-- The names in a join to a base table, the joined table named twice. -/
def joinNames (base : String) (j : JoinSpec) : List (List Char) :=
  [j.table, base, j.leftColumn, j.table, j.rightColumn].map trimChars

/-- The trimmed names of a request in the order of the statement. -/
def names (r : Request) : List (List Char) :=
  r.projection.filterMap itemName? ++ [trimChars r.table] ++ r.joins.flatMap (joinNames r.table) ++
    (Equality.parse? r.filter).toList.map (fun p => trimChars p.column) ++
    (SortOrder.parse? r.orderBy).toList.map (fun o => trimChars o.column)

theorem Identifier.parts_of_read {field value : String} {i : Identifier}
    (h : Identifier.read field value = .ok i) : i.parts = cut '.' (trimChars value) := by
  rw [Identifier.read_eq_ok_iff, Identifier.parse?] at h
  split at h
  · cases h
    rfl
  · cases h

theorem SelectItem.parts_of_read {s : String} {i : SelectItem} (h : SelectItem.read s = .ok i) :
    i.parts = (itemName? s).toList.flatMap (cut '.') := by
  rw [SelectItem.read] at h
  rw [itemName?]
  by_cases hall : trimChars s = ['*']
  · rw [if_pos hall] at h ⊢
    cases h
    rfl
  · rw [if_neg hall] at h ⊢
    by_cases hsuffix : ['.', '*'].isSuffixOf (trimChars s) = true
    · rw [if_pos hsuffix] at h ⊢
      obtain ⟨table, htable, rfl⟩ := map_eq_ok_iff.1 h
      simpa [parts] using Identifier.parts_of_read htable
    · rw [if_neg hsuffix] at h ⊢
      obtain ⟨column, hcolumn, rfl⟩ := map_eq_ok_iff.1 h
      have hparts := Identifier.parts_of_read hcolumn
      rw [trimChars_ofList_trimChars] at hparts
      simpa [parts] using hparts

theorem JoinClause.parts_of_read {base : String} {table : Identifier} {spec : JoinSpec}
    {j : JoinClause} (htable : Identifier.read "table" base = .ok table)
    (h : JoinClause.read base spec = .ok j) :
    j.parts table = (joinNames base spec).flatMap (cut '.') := by
  obtain ⟨joined, hjoined, h⟩ := bind_eq_ok_iff.1 h
  obtain ⟨_, -, h⟩ := bind_eq_ok_iff.1 h
  obtain ⟨left, hleft, h⟩ := bind_eq_ok_iff.1 h
  obtain ⟨right, hright, h⟩ := bind_eq_ok_iff.1 h
  cases h
  simp [JoinClause.parts, joinNames, Identifier.parts_of_read hjoined,
    Identifier.parts_of_read htable, Identifier.parts_of_read hleft,
    Identifier.parts_of_read hright]

/-- A filter clause is the filter that its text denotes. -/
theorem FilterClause.read_eq_ok_iff {s : String} {f : FilterClause} :
    FilterClause.read s = .ok f ↔
      ∃ p, Equality.ofText? s = some p ∧
        Identifier.read "filter column" p.column = .ok f.column ∧ f.literal = p.literal := by
  rw [FilterClause.read]
  cases Equality.ofText? s with
  | none => simp
  | some p =>
      rw [map_eq_ok_iff]
      constructor
      · rintro ⟨column, hcolumn, rfl⟩
        exact ⟨p, rfl, hcolumn, rfl⟩
      · rintro ⟨p', hp', hcolumn, hliteral⟩
        cases hp'
        exact ⟨f.column, hcolumn, by rw [← hliteral]⟩

/-- An order clause is the order that its text denotes, when it is written strictly. -/
theorem OrderClause.read_eq_ok_iff {s : String} {c : OrderClause} :
    OrderClause.read s = .ok c ↔
      ∃ o, SortOrder.ofText? s = some o ∧ SortOrder.isStrict s = true ∧
        Identifier.read "order column" o.column = .ok c.column ∧ c.descending = o.descending := by
  rw [OrderClause.read]
  cases SortOrder.ofText? s with
  | none => simp
  | some o =>
      by_cases hstrict : SortOrder.isStrict s = true
      · simp only [if_pos hstrict]
        rw [map_eq_ok_iff]
        constructor
        · rintro ⟨column, hcolumn, rfl⟩
          exact ⟨o, rfl, hstrict, hcolumn, rfl⟩
        · rintro ⟨o', ho', -, hcolumn, hdescending⟩
          cases ho'
          exact ⟨c.column, hcolumn, by rw [← hdescending]⟩
      · simp [hstrict]

theorem readGiven_eq_ok_iff {α : Type} {read : String → Except QueryError α} {s : Option String}
    {a : Option α} :
    readGiven read s = .ok a ↔ Option.Rel (fun text value => read text = .ok value) s a := by
  cases s with
  | none =>
      constructor
      · intro h
        cases h
        exact .none
      · intro h
        cases h
        rfl
  | some text =>
      rw [readGiven, map_eq_ok_iff]
      constructor
      · rintro ⟨value, hvalue, rfl⟩
        exact .some hvalue
      · intro h
        cases h with
        | some hvalue => exact ⟨_, hvalue, rfl⟩

/-- A filter that is only white space denotes none. -/
theorem parse?_filter_eq (s : Option String) : Equality.parse? s = (given? s).bind Equality.ofText? := by
  cases s with
  | none => rfl
  | some text =>
      by_cases hblank : isBlankText text = true
      · simp [Equality.parse?, Equality.ofText?, given?, Option.filter, hblank]
      · simp [Equality.parse?, given?, Option.filter, hblank]

/-- An order that is only white space denotes none. -/
theorem parse?_order_eq (s : Option String) :
    SortOrder.parse? s = (given? s).bind SortOrder.ofText? := by
  cases s with
  | none => rfl
  | some text =>
      by_cases hblank : isBlankText text = true
      · have hwords : words text = [] := by
          rw [words, wordsFrom_nil_of_blank (List.all_eq_true.1 hblank)]
          rfl
        simp [SortOrder.parse?, SortOrder.ofText?, given?, Option.filter, hblank, hwords]
      · simp [SortOrder.parse?, given?, Option.filter, hblank]

/-- A selection that is read from a request has each clause from the field of that name. -/
theorem Select.ofRequest_eq_ok_iff {r : Request} {s : Select} :
    Select.ofRequest r = .ok s ↔
      List.Forall₂ (fun text i => SelectItem.read text = .ok i) r.projection s.items ∧
      Identifier.read "table" r.table = .ok s.table ∧
      List.Forall₂ (fun spec j => JoinClause.read r.table spec = .ok j) r.joins s.joins ∧
      Option.Rel (fun text f => FilterClause.read text = .ok f) (given? r.filter) s.filter ∧
      Option.Rel (fun text o => OrderClause.read text = .ok o) (given? r.orderBy) s.order ∧
      s.limit = r.limit ∧ s.offset = r.offset := by
  rw [← mapM_eq_ok_iff, ← mapM_eq_ok_iff, ← readGiven_eq_ok_iff, ← readGiven_eq_ok_iff]
  constructor
  · intro h
    obtain ⟨items, hitems, h⟩ := bind_eq_ok_iff.1 h
    obtain ⟨table, htable, h⟩ := bind_eq_ok_iff.1 h
    obtain ⟨joins, hjoins, h⟩ := bind_eq_ok_iff.1 h
    obtain ⟨filter, hfilter, h⟩ := bind_eq_ok_iff.1 h
    obtain ⟨order, horder, h⟩ := bind_eq_ok_iff.1 h
    cases h
    exact ⟨hitems, htable, hjoins, hfilter, horder, rfl, rfl⟩
  · obtain ⟨items, table, joins, filter, order, limit, offset⟩ := s
    rintro ⟨hitems, htable, hjoins, hfilter, horder, rfl, rfl⟩
    simp only [ofRequest, hitems, htable, hjoins, hfilter, horder]
    rfl

theorem SelectItem.flatMap_parts_of_read {texts : List String} {items : List SelectItem}
    (h : List.Forall₂ (fun text i => SelectItem.read text = .ok i) texts items) :
    items.flatMap SelectItem.parts = (texts.filterMap itemName?).flatMap (cut '.') := by
  induction h with
  | nil => rfl
  | cons hitem _ ih =>
      rw [List.flatMap_cons, SelectItem.parts_of_read hitem, ih, List.filterMap_cons]
      cases itemName? _ <;> simp

theorem JoinClause.flatMap_parts_of_read {base : String} {table : Identifier}
    {specs : List JoinSpec} {joins : List JoinClause}
    (htable : Identifier.read "table" base = .ok table)
    (h : List.Forall₂ (fun spec j => JoinClause.read base spec = .ok j) specs joins) :
    joins.flatMap (JoinClause.parts table) =
      (specs.flatMap (joinNames base)).flatMap (cut '.') := by
  induction h with
  | nil => rfl
  | cons hjoin _ ih =>
      rw [List.flatMap_cons, JoinClause.parts_of_read htable hjoin, ih, List.flatMap_cons,
        List.flatMap_append]

theorem FilterClause.parts_of_read {text : Option String} {filter : Option FilterClause}
    (h : Option.Rel (fun text f => FilterClause.read text = .ok f) text filter) :
    filter.toList.flatMap (fun f => f.column.parts) =
      ((text.bind Equality.ofText?).toList.map fun p => trimChars p.column).flatMap (cut '.') := by
  cases h with
  | none => rfl
  | some hread =>
      obtain ⟨p, hp, hcolumn, -⟩ := FilterClause.read_eq_ok_iff.1 hread
      simp [hp, Identifier.parts_of_read hcolumn]

theorem OrderClause.parts_of_read {text : Option String} {order : Option OrderClause}
    (h : Option.Rel (fun text o => OrderClause.read text = .ok o) text order) :
    order.toList.flatMap (fun o => o.column.parts) =
      ((text.bind SortOrder.ofText?).toList.map fun o => trimChars o.column).flatMap (cut '.') := by
  cases h with
  | none => rfl
  | some hread =>
      obtain ⟨o, ho, -, hcolumn, -⟩ := OrderClause.read_eq_ok_iff.1 hread
      simp [ho, Identifier.parts_of_read hcolumn]

/-- The parts of a selection are the names of its request, cut at their dots. -/
theorem Select.parts_of_ofRequest {r : Request} {s : Select} (h : Select.ofRequest r = .ok s) :
    s.parts = (names r).flatMap (cut '.') := by
  obtain ⟨hitems, htable, hjoins, hfilter, horder, -, -⟩ := ofRequest_eq_ok_iff.1 h
  rw [parts, names, SelectItem.flatMap_parts_of_read hitems, Identifier.parts_of_read htable,
    JoinClause.flatMap_parts_of_read htable hjoins, FilterClause.parts_of_read hfilter,
    OrderClause.parts_of_read horder, ← parse?_filter_eq, ← parse?_order_eq]
  simp

end TableQuery.Sql
