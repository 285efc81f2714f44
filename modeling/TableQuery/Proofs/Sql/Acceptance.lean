import TableQuery.Proofs.Sql.Clauses

/-!
# Which requests compile

A request compiles exactly when each of its names is an identifier and its filter and its order
have the one form that a statement can say. Any other request is refused as unsafe. What compiles
is said in full: no filter and no order that is given is left out.
-/

namespace TableQuery.Sql

open TableQuery.Text

/-- A text that is read as an identifier. -/
def IsIdentifier (s : String) : Prop :=
  (Identifier.parse? s).isSome = true

/-- An entry of the projection: a star, a table and a star, or a column. -/
def IsEntry (s : String) : Prop :=
  trim s = "*" ∨ (∃ table, trim s = table ++ ".*" ∧ IsIdentifier table) ∨ IsIdentifier s

/-- A filter has an identifier before its first equals sign. -/
def IsFilter (s : String) : Prop :=
  isBlankText s = true ∨
    ∃ before after, s.toList = before ++ '=' :: after ∧ '=' ∉ before ∧
      IsIdentifier (String.ofList before)

/-- An order is an identifier, and a direction may follow it. -/
def IsOrder (s : String) : Prop :=
  isBlankText s = true ∨ (∃ column, words s = [column] ∧ IsIdentifier column) ∨
    ∃ column direction, words s = [column, direction] ∧
      (upper direction = "ASC" ∨ upper direction = "DESC") ∧ IsIdentifier column

/-- Every fragment of a request can stand in a statement. -/
structure Compilable (r : Request) : Prop where
  table : IsIdentifier r.table
  joins : ∀ j ∈ r.joins,
    IsIdentifier j.table ∧ IsIdentifier j.leftColumn ∧ IsIdentifier j.rightColumn
  columns : ∀ s ∈ r.projection, IsEntry s
  filter : ∀ s, r.filter = some s → IsFilter s
  order : ∀ s, r.orderBy = some s → IsOrder s

theorem Identifier.exists_read_iff {field s : String} :
    (∃ i, Identifier.read field s = .ok i) ↔ IsIdentifier s := by
  rw [IsIdentifier, Option.isSome_iff_exists]
  exact exists_congr fun i => read_eq_ok_iff

theorem isIdentifier_iff {s : String} :
    IsIdentifier s ↔ (cut '.' (trimChars s)).all isPart = true := by
  rw [IsIdentifier, Identifier.parse?]
  split <;> simp_all

theorem isIdentifier_congr {a b : String} (h : trimChars a = trimChars b) :
    IsIdentifier a ↔ IsIdentifier b := by
  rw [isIdentifier_iff, isIdentifier_iff, h]

theorem star_not_mem_of_isIdentifier {s : String} (h : IsIdentifier s) : '*' ∉ trimChars s := by
  intro hstar
  rw [isIdentifier_iff, List.all_eq_true] at h
  have hsplit : '*' = '.' ∨ ∃ piece ∈ cut '.' (trimChars s), '*' ∈ piece := mem_cut_or_eq hstar
  rcases hsplit with hdot | ⟨piece, hpiece, hstar⟩
  · exact absurd hdot (by decide)
  · rcases isPartTail_or_eq_of_isPart (h piece hpiece) hstar with htail | hbreak
    · exact absurd htail (by decide)
    · exact absurd hbreak (by decide)

theorem SelectItem.exists_read_iff {s : String} : (∃ i, SelectItem.read s = .ok i) ↔ IsEntry s := by
  have htrim : trim s = "*" ↔ trimChars s = ['*'] := by
    rw [← String.toList_inj, toList_trim]
    rfl
  have hself : trimChars (String.ofList (trimChars s)) = trimChars s := trimChars_ofList_trimChars s
  rw [SelectItem.read, IsEntry, htrim]
  by_cases hall : trimChars s = ['*']
  · simp [hall]
  · rw [if_neg hall, or_iff_right hall]
    by_cases hsuffix : ['.', '*'].isSuffixOf (trimChars s) = true
    · obtain ⟨table, htable⟩ := List.isSuffixOf_iff_suffix.1 hsuffix
      have htake : (trimChars s).take ((trimChars s).length - 2) = table := by
        simp [← htable]
      have hstar : ¬IsIdentifier s := by
        intro h
        exact star_not_mem_of_isIdentifier h (by simp [← htable])
      rw [if_pos hsuffix, exists_map_iff, Identifier.exists_read_iff, htake, or_iff_left hstar]
      constructor
      · intro h
        refine ⟨String.ofList table, ?_, h⟩
        rw [← String.toList_inj, toList_trim, ← htable]
        simp
      · rintro ⟨other, hother, h⟩
        have hlist : table ++ ['.', '*'] = other.toList ++ ['.', '*'] := by
          rw [htable, ← toList_trim, hother]
          simp
        rw [List.append_cancel_right hlist, String.ofList_toList]
        exact h
    · have hnone : ¬∃ table, trim s = table ++ ".*" ∧ IsIdentifier table := by
        rintro ⟨table, htable, -⟩
        apply hsuffix
        rw [List.isSuffixOf_iff_suffix, ← toList_trim, htable]
        exact ⟨table.toList, by simp⟩
      rw [if_neg hsuffix, exists_map_iff, Identifier.exists_read_iff, or_iff_right hnone]
      exact isIdentifier_congr hself

theorem JoinClause.exists_read_iff {base : String} {spec : JoinSpec} (hbase : IsIdentifier base) :
    (∃ j, JoinClause.read base spec = .ok j) ↔
      IsIdentifier spec.table ∧ IsIdentifier spec.leftColumn ∧ IsIdentifier spec.rightColumn := by
  constructor
  · rintro ⟨j, hj⟩
    obtain ⟨htable, -, hleft, hright⟩ := read_eq_ok_iff.1 hj
    exact ⟨Identifier.exists_read_iff.1 ⟨_, htable⟩, Identifier.exists_read_iff.1 ⟨_, hleft⟩,
      Identifier.exists_read_iff.1 ⟨_, hright⟩⟩
  · rintro ⟨htable, hleft, hright⟩
    obtain ⟨table, htable⟩ := Identifier.exists_read_iff.2 htable
    obtain ⟨left, hleft⟩ := Identifier.exists_read_iff.2 hleft
    obtain ⟨right, hright⟩ := Identifier.exists_read_iff.2 hright
    exact ⟨⟨table, left, right⟩,
      read_eq_ok_iff.2 ⟨htable, Identifier.exists_read_iff.2 hbase, hleft, hright⟩⟩

theorem FilterClause.exists_read_iff {s : String} (h : isBlankText s = false) :
    (∃ f, FilterClause.read s = .ok f) ↔ IsFilter s := by
  have hblank : ¬isBlankText s = true := by simp [h]
  rw [FilterClause.read, Equality.ofText?, if_neg hblank, IsFilter, or_iff_right hblank,
    Equality.tokens]
  rcases hcut : cutFirst '=' s.toList with ⟨before, after?⟩
  cases after? with
  | none =>
      have hmem : '=' ∉ s.toList := cutFirst_snd_eq_none_iff.1 (by rw [hcut])
      constructor
      · rintro ⟨f, hf⟩
        cases hf
      · rintro ⟨left, right, hs, -⟩
        exact absurd (by simp [hs]) hmem
  | some after =>
      obtain ⟨hs, hbefore⟩ := cutFirst_eq_some_iff.1 hcut
      have hcolumn : IsIdentifier (String.ofList (stripBy isBlank before)) ↔
          IsIdentifier (String.ofList before) := by
        apply isIdentifier_congr
        rw [trimChars, trimChars, String.toList_ofList, String.toList_ofList, stripBy_stripBy]
      simp only [exists_map_iff, Identifier.exists_read_iff, hcolumn]
      constructor
      · intro hread
        exact ⟨before, after, hs, hbefore, hread⟩
      · rintro ⟨left, right, hs', hleft, hread⟩
        have hcut' := cutFirst_eq_some_iff.2 ⟨hs', hleft⟩
        rw [hcut, Prod.mk.injEq] at hcut'
        rw [hcut'.1]
        exact hread

theorem OrderClause.exists_read_iff {s : String} (h : isBlankText s = false) :
    (∃ o, OrderClause.read s = .ok o) ↔ IsOrder s := by
  have hblank : ¬isBlankText s = true := by simp [h]
  rw [OrderClause.read, SortOrder.ofText?, SortOrder.isStrict, IsOrder, or_iff_right hblank]
  rcases words s with _ | ⟨column, _ | ⟨direction, _ | ⟨more, rest⟩⟩⟩
  · simp
  · simp [exists_map_iff, Identifier.exists_read_iff]
  · by_cases hdirection : upper direction = "ASC" ∨ upper direction = "DESC"
    · simp [hdirection, exists_map_iff, Identifier.exists_read_iff]
    · simp [hdirection]
  · simp

theorem forall_given_iff {p : String → Prop} {text : Option String} :
    (∀ s, given? text = some s → p s) ↔ ∀ s, text = some s → isBlankText s = false → p s := by
  simp only [given?, Option.filter_eq_some_iff, Bool.not_eq_true', and_imp]

/-- Whether a request is a selection is decided fragment by fragment. -/
theorem Select.exists_ofRequest_iff {r : Request} :
    (∃ s, Select.ofRequest r = .ok s) ↔ Compilable r := by
  have hfilter : (∀ s, given? r.filter = some s → ∃ f, FilterClause.read s = .ok f) ↔
      ∀ s, r.filter = some s → IsFilter s := by
    rw [forall_given_iff]
    refine forall₂_congr fun s _ => ?_
    cases hblank : isBlankText s with
    | true => simp [IsFilter, hblank]
    | false => simp [FilterClause.exists_read_iff hblank]
  have horder : (∀ s, given? r.orderBy = some s → ∃ o, OrderClause.read s = .ok o) ↔
      ∀ s, r.orderBy = some s → IsOrder s := by
    rw [forall_given_iff]
    refine forall₂_congr fun s _ => ?_
    cases hblank : isBlankText s with
    | true => simp [IsOrder, hblank]
    | false => simp [OrderClause.exists_read_iff hblank]
  constructor
  · rintro ⟨s, hs⟩
    obtain ⟨hitems, htable, hjoins, hfilters, horders, -, -⟩ := ofRequest_eq_ok_iff.1 hs
    have hbase := Identifier.exists_read_iff.1 ⟨_, htable⟩
    constructor
    case table => exact hbase
    case joins =>
      intro j hj
      exact (JoinClause.exists_read_iff hbase).1 (exists_forall₂_iff.1 ⟨_, hjoins⟩ j hj)
    case columns =>
      intro text htext
      exact SelectItem.exists_read_iff.1 (exists_forall₂_iff.1 ⟨_, hitems⟩ text htext)
    case filter => exact hfilter.1 (exists_optionRel_iff.1 ⟨_, hfilters⟩)
    case order => exact horder.1 (exists_optionRel_iff.1 ⟨_, horders⟩)
  · intro h
    obtain ⟨items, hitems⟩ :=
      exists_forall₂_iff.2 fun text htext => SelectItem.exists_read_iff.2 (h.columns text htext)
    obtain ⟨table, htable⟩ := Identifier.exists_read_iff.2 h.table
    obtain ⟨joins, hjoins⟩ :=
      exists_forall₂_iff.2 fun j hj => (JoinClause.exists_read_iff h.table).2 (h.joins j hj)
    obtain ⟨filter, hfilters⟩ := exists_optionRel_iff.2 (hfilter.2 h.filter)
    obtain ⟨order, horders⟩ := exists_optionRel_iff.2 (horder.2 h.order)
    exact ⟨⟨items, table, joins, filter, order, r.limit, r.offset⟩,
      ofRequest_eq_ok_iff.2 ⟨hitems, htable, hjoins, hfilters, horders, rfl, rfl⟩⟩

/-- A reading that is only ever refused as unsafe. -/
def OnlyUnsafe {α : Type} (x : Except QueryError α) : Prop :=
  ∀ e, x = .error e → e.kind = .unsafeExpression

namespace OnlyUnsafe

variable {α β : Type}

theorem ok (a : α) : OnlyUnsafe (.ok a) := by
  intro e he
  cases he

theorem bind {x : Except QueryError α} {f : α → Except QueryError β} (hx : OnlyUnsafe x)
    (hf : ∀ a, OnlyUnsafe (f a)) : OnlyUnsafe (x >>= f) := by
  cases x with
  | error e =>
      intro e' he'
      cases he'
      exact hx e rfl
  | ok a => exact hf a

theorem map {x : Except QueryError α} (hx : OnlyUnsafe x) (f : α → β) : OnlyUnsafe (x.map f) := by
  cases x with
  | error e =>
      intro e' he'
      cases he'
      exact hx e rfl
  | ok a => exact ok (f a)

theorem mapM {f : α → Except QueryError β} (hf : ∀ a, OnlyUnsafe (f a)) (xs : List α) :
    OnlyUnsafe (xs.mapM f) := by
  induction xs with
  | nil => exact ok []
  | cons x xs ih =>
      rw [List.mapM_cons]
      exact (hf x).bind fun y => ih.bind fun ys => ok (y :: ys)

theorem readGiven {read : String → Except QueryError α} (hread : ∀ s, OnlyUnsafe (read s))
    (text : Option String) : OnlyUnsafe (Sql.readGiven read text) := by
  cases text with
  | none => exact ok none
  | some s => exact (hread s).map some

theorem identifier (field s : String) : OnlyUnsafe (Identifier.read field s) := by
  rw [Identifier.read]
  split
  · exact ok _
  · intro e he
    cases he
    rfl

theorem item (s : String) : OnlyUnsafe (SelectItem.read s) := by
  rw [SelectItem.read]
  split_ifs
  · exact ok _
  · exact (identifier _ _).map _
  · exact (identifier _ _).map _

theorem join (base : String) (j : JoinSpec) : OnlyUnsafe (JoinClause.read base j) :=
  (identifier _ _).bind fun _ => (identifier _ _).bind fun _ => (identifier _ _).bind fun _ =>
    (identifier _ _).bind fun _ => ok _

theorem filter (s : String) : OnlyUnsafe (FilterClause.read s) := by
  rw [FilterClause.read]
  split
  · intro e he
    cases he
    rfl
  · exact (identifier _ _).map _

theorem order (s : String) : OnlyUnsafe (OrderClause.read s) := by
  rw [OrderClause.read]
  split
  · intro e he
    cases he
    rfl
  · split_ifs
    · exact (identifier _ _).map _
    · intro e he
      cases he
      rfl

theorem select (r : Request) : OnlyUnsafe (Select.ofRequest r) :=
  (mapM item _).bind fun _ => (identifier _ _).bind fun _ => (mapM (join r.table) _).bind fun _ =>
    (readGiven filter _).bind fun _ => (readGiven order _).bind fun _ => ok _

end OnlyUnsafe

/-- A statement says what its request asks for: each clause once and in order, the literal of the
filter as its parameter, and every filter and order that is given. -/
structure SaysAll (r : Request) (s : Statement) : Prop where
  sql_eq : s.sql = String.intercalate " " (clauseTexts r)
  params_eq : s.params = (Equality.parse? r.filter).toList.map fun p => .text p.literal
  filter_said : ∀ text, r.filter = some text → isBlankText text = false →
    (Equality.parse? r.filter).isSome = true
  order_said : ∀ text, r.orderBy = some text → isBlankText text = false →
    (SortOrder.parse? r.orderBy).isSome = true

/-- A request compiles exactly when every fragment of it is accepted. It is refused as unsafe
otherwise, and its statement leaves nothing out. -/
theorem compile_safe_exact (r : Request) :
    ((∃ s, compile .safe r = .ok s) ↔ Compilable r) ∧
      (∀ e, compile .safe r = .error e → e.kind = .unsafeExpression) ∧
      ∀ s, compile .safe r = .ok s → SaysAll r s := by
  refine ⟨?_, (OnlyUnsafe.select r).map Select.statement, ?_⟩
  · rw [compile, exists_map_iff, Select.exists_ofRequest_iff]
  · intro s hs
    obtain ⟨sel, hsel, rfl⟩ := map_eq_ok_iff.1 hs
    obtain ⟨-, -, -, hfilter, horder, -, -⟩ := Select.ofRequest_eq_ok_iff.1 hsel
    constructor
    case sql_eq => rw [Select.statement, Select.clauses_of_ofRequest hsel]
    case params_eq => exact Select.params_of_ofRequest hsel
    case filter_said =>
      intro text htext hblank
      have hgiven : given? r.filter = some text := by simp [given?, htext, Option.filter, hblank]
      obtain ⟨f, hf⟩ := exists_optionRel_iff.1 ⟨_, hfilter⟩ text hgiven
      obtain ⟨p, hp, -⟩ := FilterClause.read_eq_ok_iff.1 hf
      rw [htext, Equality.parse?, Option.bind_some, hp]
      rfl
    case order_said =>
      intro text htext hblank
      have hgiven : given? r.orderBy = some text := by simp [given?, htext, Option.filter, hblank]
      obtain ⟨c, hc⟩ := exists_optionRel_iff.1 ⟨_, horder⟩ text hgiven
      obtain ⟨o, ho, -⟩ := OrderClause.read_eq_ok_iff.1 hc
      rw [htext, SortOrder.parse?, Option.bind_some, ho]
      rfl

end TableQuery.Sql
