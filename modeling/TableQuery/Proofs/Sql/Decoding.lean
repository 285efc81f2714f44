import TableQuery.Proofs.Sql.Clauses

/-!
# Reading a statement back

A statement can be read from left to right. A name ends where no further quoted part is joined
to it, an entry of the projection where a comma or a space follows, and the keyword of a clause
tells which clause it is. The columns of a join stand behind the base table, which is known by
then from its own clause, so that their dots are not ambiguous. Hence two selections with the
same text have the same clauses.
-/

namespace TableQuery.Sql

open TableQuery.Text

/-- Two texts that start with elements and go on as `Ends` says are equal only when the elements
are equal and the texts behind them are. -/
def Decodes {α : Type} (Valid : α → Prop) (Ends : List Char → Prop) (g : α → List Char) : Prop :=
  ∀ ⦃a b : α⦄ ⦃u v : List Char⦄, Valid a → Valid b → Ends u → Ends v →
    g a ++ u = g b ++ v → a = b ∧ u = v

namespace Decodes

variable {α : Type} {Valid : α → Prop} {Ends : List Char → Prop} {g : α → List Char}

theorem ends_flatMap (hnext : ∀ a u, Ends (g a ++ u)) (xs : List α) {u : List Char} (hu : Ends u) :
    Ends (xs.flatMap g ++ u) := by
  cases xs with
  | nil => exact hu
  | cons x xs =>
      rw [List.flatMap_cons, List.append_assoc]
      exact hnext x _

theorem flatMap (h : Decodes Valid Ends g) (hnext : ∀ a u, Ends (g a ++ u)) :
    Decodes (fun xs => ∀ x ∈ xs, Valid x) (fun u => Ends u ∧ ∀ a w, u ≠ g a ++ w)
      (List.flatMap g) := by
  intro xs
  induction xs with
  | nil =>
      intro ys u v _ _ hu _ heq
      cases ys with
      | nil => exact ⟨rfl, heq⟩
      | cons y ys =>
          rw [List.flatMap_nil, List.nil_append, List.flatMap_cons, List.append_assoc] at heq
          exact absurd heq (hu.2 y _)
  | cons x xs ih =>
      intro ys u v hxs hys hu hv heq
      cases ys with
      | nil =>
          rw [List.flatMap_nil, List.nil_append, List.flatMap_cons, List.append_assoc] at heq
          exact absurd heq.symm (hv.2 x _)
      | cons y ys =>
          rw [List.forall_mem_cons] at hxs hys
          rw [List.flatMap_cons, List.flatMap_cons, List.append_assoc, List.append_assoc] at heq
          obtain ⟨rfl, hrest⟩ :=
            h hxs.1 hys.1 (ends_flatMap hnext xs hu.1) (ends_flatMap hnext ys hv.1) heq
          obtain ⟨rfl, huv⟩ := ih hxs.2 hys.2 hu hv hrest
          exact ⟨rfl, huv⟩

theorem intercalate_map_cons (sep : List Char) (g : α → List Char) (x : α) (xs : List α) :
    List.intercalate sep ((x :: xs).map g) = g x ++ xs.flatMap (fun y => sep ++ g y) := by
  induction xs generalizing x with
  | nil => simp
  | cons y xs ih =>
      rw [List.map_cons, List.map_cons, List.intercalate_cons_cons, ← List.map_cons, ih,
        List.flatMap_cons]
      simp only [List.append_assoc]

theorem intercalate (h : Decodes Valid Ends g) {sep : List Char} (hsep : ∀ u, Ends (sep ++ u)) :
    Decodes (fun xs => xs ≠ [] ∧ ∀ x ∈ xs, Valid x)
      (fun u => Ends u ∧ ∀ a w, u ≠ (sep ++ g a) ++ w)
      (fun xs => List.intercalate sep (xs.map g)) := by
  have htail : Decodes Valid Ends (fun x => sep ++ g x) := by
    intro a b u v ha hb hu hv heq
    rw [List.append_assoc, List.append_assoc, List.append_cancel_left_eq] at heq
    exact h ha hb hu hv heq
  have hnext : ∀ a u, Ends ((sep ++ g a) ++ u) := by
    intro a u
    rw [List.append_assoc]
    exact hsep _
  rintro (_ | ⟨x, xs⟩) (_ | ⟨y, ys⟩) u v ⟨hne, hxs⟩ ⟨hne', hys⟩ hu hv heq
  · exact absurd rfl hne
  · exact absurd rfl hne
  · exact absurd rfl hne'
  · rw [List.forall_mem_cons] at hxs hys
    simp only [intercalate_map_cons, List.append_assoc] at heq
    obtain ⟨rfl, hrest⟩ :=
      h hxs.1 hys.1 (ends_flatMap hnext xs hu.1) (ends_flatMap hnext ys hv.1) heq
    obtain ⟨rfl, huv⟩ := htail.flatMap hnext hxs.2 hys.2 hu hv hrest
    exact ⟨rfl, huv⟩

end Decodes

/-- A text that does not go on with a further part of a name. -/
def EndsName (u : List Char) : Prop :=
  ∀ w, u ≠ '.' :: '"' :: w

/-- A text that goes on with the next entry of the projection or with the next clause. -/
def EndsItem (u : List Char) : Prop :=
  ∃ c w, u = c :: w ∧ (c = ',' ∨ c = ' ')

/-- A text that is over or goes on with the next clause. -/
def EndsClause (u : List Char) : Prop :=
  u = [] ∨ ∃ w, u = ' ' :: w

theorem EndsItem.endsName {u : List Char} (h : EndsItem u) : EndsName u := by
  obtain ⟨c, w, rfl, rfl | rfl⟩ := h <;> simp [EndsName]

theorem EndsClause.endsName {u : List Char} (h : EndsClause u) : EndsName u := by
  obtain rfl | ⟨w, rfl⟩ := h <;> simp [EndsName]

theorem endsName_append {s : String} (h : s.toList.head?.any (· ≠ '.') = true) (u : List Char) :
    EndsName (s.toList ++ u) := by
  cases hs : s.toList with
  | nil => simp [hs] at h
  | cons c s =>
      rw [hs] at h
      simp_all [EndsName]

theorem append_cons_inj {sep : Char} {p q u v : List Char} (hp : sep ∉ p) (hq : sep ∉ q)
    (h : p ++ sep :: u = q ++ sep :: v) : p = q ∧ u = v := by
  have hcut := congrArg (cut sep) h
  rw [cut_append_cons hp, cut_append_cons hq, List.cons.injEq] at hcut
  obtain ⟨rfl, -⟩ := hcut
  rw [List.append_cancel_left_eq, List.cons.injEq] at h
  exact ⟨rfl, h.2⟩

namespace Identifier

theorem decodes_quotePart : Decodes (fun p => isPart p = true) (fun _ => True) quotePart := by
  intro p q u v hp hq _ _ h
  simp only [quotePart, List.cons_append, List.append_assoc, List.nil_append, List.cons.injEq,
    true_and] at h
  exact append_cons_inj (quote_not_mem_of_isPart hp) (quote_not_mem_of_isPart hq) h

theorem toList_quoted (i : Identifier) :
    i.quoted.toList = List.intercalate ['.'] (i.parts.map quotePart) := by
  rw [quoted, String.toList_ofList]

theorem decodes_quoted :
    Decodes (fun _ => True) EndsName fun i : Identifier => i.quoted.toList := by
  intro i j u v _ _ hu hv h
  have hends : ∀ {u : List Char}, EndsName u → ∀ p w, u ≠ (['.'] ++ quotePart p) ++ w := by
    intro u hu p w
    exact hu (p ++ ['"'] ++ w)
  simp only [toList_quoted] at h
  obtain ⟨hparts, huv⟩ := decodes_quotePart.intercalate (fun _ => trivial)
    ⟨i.nonempty, fun p hp => isPart_of_mem hp⟩ ⟨j.nonempty, fun p hp => isPart_of_mem hp⟩
    ⟨trivial, hends hu⟩ ⟨trivial, hends hv⟩ h
  obtain ⟨parts, _, _⟩ := i
  cases hparts
  exact ⟨rfl, huv⟩

theorem exists_toList_quoted_eq (i : Identifier) : ∃ w, i.quoted.toList = '"' :: w := by
  obtain ⟨p, ps, hparts⟩ := List.exists_cons_of_ne_nil i.nonempty
  rw [toList_quoted, hparts, Decodes.intercalate_map_cons]
  exact ⟨_, rfl⟩

end Identifier

theorem toList_qualified (table column : Identifier) :
    (qualified table column).toList = table.quoted.toList ++ '.' :: column.quoted.toList := by
  simp [qualified]

theorem SelectItem.decodes_render :
    Decodes (fun _ => True) EndsItem fun i : SelectItem => i.render.toList := by
  have hstar : ∀ (i : Identifier) {u v : List Char}, '*' :: u ≠ i.quoted.toList ++ v := by
    intro i u v h
    obtain ⟨w, hw⟩ := i.exists_toList_quoted_eq
    rw [hw] at h
    simp at h
  have hdot : ∀ u, EndsName (".*".toList ++ u) := by simp [EndsName]
  have hitem : ∀ {u v : List Char}, EndsItem v → ".*".toList ++ u ≠ v := by
    rintro u v ⟨c, w, rfl, rfl | rfl⟩ <;> simp
  rintro (_ | i | i) (_ | j | j) u v _ _ hu hv h <;>
    simp only [render, String.toList_append, List.append_assoc] at h
  case all.all => exact ⟨rfl, List.append_cancel_left h⟩
  case all.allOf => exact absurd h (hstar j)
  case all.column => exact absurd h (hstar j)
  case allOf.all => exact absurd h.symm (hstar i)
  case column.all => exact absurd h.symm (hstar i)
  case allOf.allOf =>
    obtain ⟨rfl, huv⟩ := Identifier.decodes_quoted trivial trivial (hdot u) (hdot v) h
    exact ⟨rfl, List.append_cancel_left huv⟩
  case allOf.column =>
    obtain ⟨-, huv⟩ := Identifier.decodes_quoted trivial trivial (hdot u) hv.endsName h
    exact absurd huv (hitem hv)
  case column.allOf =>
    obtain ⟨-, huv⟩ := Identifier.decodes_quoted trivial trivial hu.endsName (hdot v) h
    exact absurd huv.symm (hitem hu)
  case column.column =>
    obtain ⟨rfl, huv⟩ := Identifier.decodes_quoted trivial trivial hu.endsName hv.endsName h
    exact ⟨rfl, huv⟩

/-- The columns of a join can be told from their tables, which are known when they are read. -/
theorem JoinClause.decodes_render (base : Identifier) :
    Decodes (fun _ => True) EndsClause fun j : JoinClause => (j.render base).toList := by
  intro i j u v _ _ hu hv h
  have hon : ∀ u, EndsName (" ON ".toList ++ u) := endsName_append (by decide)
  have hequals : ∀ u, EndsName (" = ".toList ++ u) := endsName_append (by decide)
  simp only [render, String.toList_append, toList_qualified, List.append_assoc,
    List.append_cancel_left_eq] at h
  obtain ⟨htable, h⟩ := Identifier.decodes_quoted trivial trivial (hon _) (hon _) h
  simp only [htable, List.append_cancel_left_eq, List.cons_append, List.cons.injEq, true_and] at h
  obtain ⟨hleft, h⟩ := Identifier.decodes_quoted trivial trivial (hequals _) (hequals _) h
  simp only [List.append_cancel_left_eq, List.cons.injEq, true_and] at h
  obtain ⟨hright, huv⟩ := Identifier.decodes_quoted trivial trivial hu.endsName hv.endsName h
  obtain ⟨table, left, right⟩ := i
  obtain ⟨table', left', right'⟩ := j
  cases htable
  cases hleft
  cases hright
  exact ⟨rfl, huv⟩

theorem OrderClause.decodes_render :
    Decodes (fun _ => True) EndsClause fun o : OrderClause => o.render.toList := by
  have hdirection : ∀ (d : Bool) u,
      EndsName ((if d = true then " DESC" else " ASC").toList ++ u) := by
    intro d
    cases d with
    | true => exact endsName_append (by decide)
    | false => exact endsName_append (by decide)
  rintro ⟨i, d⟩ ⟨j, e⟩ u v _ _ _ _ h
  simp only [render, String.toList_append, List.append_assoc] at h
  obtain ⟨rfl, huv⟩ := Identifier.decodes_quoted trivial trivial (hdirection d _) (hdirection e _) h
  cases d <;> cases e
  case false.false => exact ⟨rfl, List.append_cancel_left huv⟩
  case true.true => exact ⟨rfl, List.append_cancel_left huv⟩
  case false.true => simp at huv
  case true.false => simp at huv

theorem decodes_repr : Decodes (fun _ => True) EndsClause fun n : Nat => n.repr.toList := by
  have hspace : ∀ n : Nat, ' ' ∉ n.repr.toList := not_mem_repr (by decide)
  have hover : ∀ {m n : Nat} {v : List Char}, m.repr.toList ≠ n.repr.toList ++ ' ' :: v := by
    intro m n v h
    exact hspace m (h ▸ List.mem_append_right _ List.mem_cons_self)
  have hdigits : ∀ n : Nat, Nat.ofDigitChars 10 n.repr.toList 0 = n := by
    intro n
    rw [Nat.toList_repr]
    exact Nat.ofDigitChars_toDigits (by decide) (by decide)
  have hvalue : ∀ {m n : Nat}, m.repr.toList = n.repr.toList → m = n := by
    intro m n h
    rw [← hdigits m, h, hdigits]
  rintro m n u v _ _ (rfl | ⟨u, rfl⟩) (rfl | ⟨v, rfl⟩) h
  · rw [List.append_nil, List.append_nil] at h
    exact ⟨hvalue h, rfl⟩
  · rw [List.append_nil] at h
    exact absurd h hover
  · rw [List.append_nil] at h
    exact absurd h.symm hover
  · obtain ⟨hrepr, rfl⟩ := append_cons_inj (hspace m) (hspace n) h
    exact ⟨hvalue hrepr, rfl⟩

/-- A clause behind the one for the base table. -/
inductive Clause
  | join (j : JoinClause)
  | filter (column : Identifier)
  | order (o : OrderClause)
  | limit (n : Nat)
  | offset (n : Nat)

namespace Clause

/-- A clause as it stands in a statement. -/
def render (base : Identifier) : Clause → String
  | join j => j.render base
  | filter column => "WHERE " ++ column.quoted ++ " = " ++ Statement.placeholder 1
  | order o => "ORDER BY " ++ o.render
  | limit n => "LIMIT " ++ n.repr
  | offset n => "OFFSET " ++ n.repr

theorem decodes_render (base : Identifier) :
    Decodes (fun _ => True) EndsClause fun c : Clause => (c.render base).toList := by
  have hequals : ∀ u, EndsName (" = ".toList ++ u) := endsName_append (by decide)
  rintro (i | i | i | i | i) (j | j | j | j | j) u v _ _ hu hv h
  case join.join =>
    obtain ⟨rfl, huv⟩ := JoinClause.decodes_render base trivial trivial hu hv h
    exact ⟨rfl, huv⟩
  all_goals simp only [render, JoinClause.render, String.toList_append, List.append_assoc] at h
  case filter.filter =>
    rw [List.append_cancel_left_eq] at h
    obtain ⟨rfl, huv⟩ := Identifier.decodes_quoted trivial trivial (hequals _) (hequals _) h
    rw [List.append_cancel_left_eq, List.append_cancel_left_eq] at huv
    exact ⟨rfl, huv⟩
  case order.order =>
    obtain ⟨rfl, huv⟩ :=
      OrderClause.decodes_render trivial trivial hu hv (List.append_cancel_left h)
    exact ⟨rfl, huv⟩
  case limit.limit =>
    obtain ⟨rfl, huv⟩ := decodes_repr trivial trivial hu hv (List.append_cancel_left h)
    exact ⟨rfl, huv⟩
  case offset.offset =>
    obtain ⟨rfl, huv⟩ := decodes_repr trivial trivial hu hv (List.append_cancel_left h)
    exact ⟨rfl, huv⟩
  -- Clauses of two kinds start with different keywords.
  all_goals simp at h

def join? : Clause → Option JoinClause
  | join j => some j
  | _ => none

def filter? : Clause → Option Identifier
  | filter column => some column
  | _ => none

def order? : Clause → Option OrderClause
  | order o => some o
  | _ => none

def limit? : Clause → Option Nat
  | limit n => some n
  | _ => none

def offset? : Clause → Option Nat
  | offset n => some n
  | _ => none

end Clause

theorem FilterClause.eq_of_map_eq {f g : Option FilterClause}
    (hcolumn : f.toList.map column = g.toList.map column)
    (hliteral : f.map (fun f => Datum.text f.literal) = g.map fun f => Datum.text f.literal) :
    f = g := by
  rcases f with _ | ⟨column, literal⟩ <;> rcases g with _ | ⟨column', literal'⟩ <;> simp_all

namespace Select

/-- The entries of the projection, a star when there are none. -/
def shownItems (s : Select) : List SelectItem :=
  if s.items.isEmpty then [.all] else s.items

/-- The clauses behind the one for the base table. -/
def laterClauses (s : Select) : List Clause :=
  s.joins.map .join ++ s.filter.toList.map (fun f => .filter f.column) ++
    s.order.toList.map .order ++ s.limit.toList.map .limit ++ s.offset.toList.map .offset

theorem shownItems_ne_nil (s : Select) : s.shownItems ≠ [] := by
  rw [shownItems]
  split
  · simp
  · next h => simpa using h

theorem renderItems_eq (s : Select) :
    renderItems s.items = String.intercalate ", " (s.shownItems.map SelectItem.render) := by
  rw [renderItems, shownItems]
  split
  · simp [SelectItem.render]
  · rfl

theorem clauses_eq_cons (s : Select) :
    s.clauses = ("SELECT " ++ renderItems s.items) :: ("FROM " ++ s.table.quoted) ::
      s.laterClauses.map (Clause.render s.table) := by
  rw [clauses_eq, laterClauses]
  simp only [List.map_append, List.map_map, List.cons_append, List.nil_append]
  rfl

/-- The text of a statement: the projection, the base table and every later clause behind a
space. -/
theorem toList_sql (s : Select) :
    s.statement.sql.toList = "SELECT ".toList ++
      (List.intercalate ", ".toList (s.shownItems.map fun i => i.render.toList) ++
        (" FROM ".toList ++ (s.table.quoted.toList ++
          s.laterClauses.flatMap fun c => ' ' :: (c.render s.table).toList))) := by
  rw [statement, clauses_eq_cons, String.toList_intercalate, Decodes.intercalate_map_cons]
  simp [List.flatMap_map, renderItems_eq, Function.comp_def]

/-- Two selections with one text have the same clauses. -/
theorem eq_of_sql_eq {s t : Select} (h : s.statement.sql = t.statement.sql) :
    s.shownItems = t.shownItems ∧ s.table = t.table ∧ s.laterClauses = t.laterClauses := by
  have hfrom : ∀ u, EndsItem (" FROM ".toList ++ u) := fun u => ⟨' ', _, rfl, .inr rfl⟩
  have hcomma : ∀ u, EndsItem (", ".toList ++ u) := fun u => ⟨',', _, rfl, .inl rfl⟩
  have hlast : ∀ u (i : SelectItem) w,
      " FROM ".toList ++ u ≠ (", ".toList ++ i.render.toList) ++ w := by
    simp
  have hlater : ∀ base : Identifier,
      Decodes (fun _ => True) EndsClause fun c : Clause => ' ' :: (c.render base).toList := by
    intro base c d u v _ _ hu hv heq
    rw [List.cons_append, List.cons_append, List.cons.injEq] at heq
    exact Clause.decodes_render base trivial trivial hu hv heq.2
  have hnext : ∀ (base : Identifier) (c : Clause) u,
      EndsClause ((' ' :: (c.render base).toList) ++ u) := fun base c u => .inr ⟨_, rfl⟩
  have hrest : ∀ (base : Identifier) (cs : List Clause),
      EndsClause (cs.flatMap fun c => ' ' :: (c.render base).toList) := by
    intro base cs
    rw [← List.append_nil (List.flatMap _ cs)]
    exact Decodes.ends_flatMap (hnext base) cs (.inl rfl)
  rw [← String.toList_inj, toList_sql, toList_sql, List.append_cancel_left_eq] at h
  obtain ⟨hitems, h⟩ := SelectItem.decodes_render.intercalate hcomma
    ⟨s.shownItems_ne_nil, fun _ _ => trivial⟩ ⟨t.shownItems_ne_nil, fun _ _ => trivial⟩
    ⟨hfrom _, hlast _⟩ ⟨hfrom _, hlast _⟩ h
  rw [List.append_cancel_left_eq] at h
  obtain ⟨htable, h⟩ := Identifier.decodes_quoted trivial trivial (hrest _ _).endsName
    (hrest _ _).endsName h
  rw [htable, ← List.append_nil (List.flatMap _ _),
    ← List.append_nil (List.flatMap _ t.laterClauses)] at h
  obtain ⟨hclauses, -⟩ := (hlater t.table).flatMap (hnext t.table) (fun _ _ => trivial)
    (fun _ _ => trivial) ⟨.inl rfl, by simp⟩ ⟨.inl rfl, by simp⟩ h
  exact ⟨hitems, htable, hclauses⟩

/-- Each kind of clause can be picked out of the later clauses. -/
theorem filterMap_laterClauses (s : Select) :
    s.laterClauses.filterMap Clause.join? = s.joins ∧
      s.laterClauses.filterMap Clause.filter? = s.filter.toList.map FilterClause.column ∧
      s.laterClauses.filterMap Clause.order? = s.order.toList ∧
      s.laterClauses.filterMap Clause.limit? = s.limit.toList ∧
      s.laterClauses.filterMap Clause.offset? = s.offset.toList := by
  simp [laterClauses, List.filterMap_map, Function.comp_def, Clause.join?, Clause.filter?,
    Clause.order?, Clause.limit?, Clause.offset?]

/-- A statement determines its selection, except that a projection without entries is read as a
star. -/
theorem eq_of_statement_eq {s t : Select} (hsql : s.statement.sql = t.statement.sql)
    (hparams : s.statement.params = t.statement.params) :
    s.shownItems = t.shownItems ∧ { s with items := t.items } = t := by
  have hoption : ∀ {α : Type} {a b : Option α}, a.toList = b.toList → a = b := by
    intro α a b h
    simpa using congrArg List.head? h
  obtain ⟨hitems, htable, hlater⟩ := eq_of_sql_eq hsql
  obtain ⟨hjoins, hcolumn, horder, hlimit, hoffset⟩ := s.filterMap_laterClauses
  obtain ⟨hjoins', hcolumn', horder', hlimit', hoffset'⟩ := t.filterMap_laterClauses
  rw [hlater] at hjoins hcolumn horder hlimit hoffset
  have hfilter := FilterClause.eq_of_map_eq (hcolumn.symm.trans hcolumn') (hoption hparams)
  refine ⟨hitems, ?_⟩
  rw [htable, hjoins.symm.trans hjoins', hfilter, hoption (horder.symm.trans horder'),
    hoption (hlimit.symm.trans hlimit'), hoption (hoffset.symm.trans hoffset')]

end Select

end TableQuery.Sql
