import Mathlib.Data.List.Nodup
import TableQuery.Database.Evaluate
import TableQuery.Proofs.Links

/-!
# Binding the names of a chain of joins

When tables have names of their own and no column twice, a column behind the name of its table
is found at one position only: the columns of the tables before it are passed over, and its
place in its own header is added.
-/

namespace TableQuery

open TableQuery.Text

theorem sameName_iff {a b : String} : sameName a b = true ↔ lowerAscii a = lowerAscii b := by
  rw [sameName, beq_iff_eq]

/-- The table of a store that holds a sheet of texts. -/
def TableData.ofTexts (name : String) (t : TextTable) : TableData where
  name := name
  columns := t.header.map fun column => (column, .varchar)
  rows := t.rows.map fun row => row.map .text

/-- The join in a plan over a base table. -/
def Link.planJoin (base : String) (k : Link) : PlanJoin where
  table := [k.name]
  left := [base, k.left]
  right := [k.name, k.right]

namespace Evaluate

theorem qualifies_fullName (name catalog table : String) :
    qualifies [name] (fullName catalog table) = sameName name table := by
  simp [qualifies, fullName, sameNames, sameName]

theorem sameNames_fullName (catalog a b : String) :
    sameNames (fullName catalog a) (fullName catalog b) = sameName a b := by
  simp [sameNames, fullName, sameName]

theorem findTable_of_table? {d : Database} {name : String} {t : TableData}
    (h : d.table? name = some t) (catalog : String) : findTable catalog d [name] = .ok t := by
  simp only [findTable, h]

/-- The columns of tables of texts, given by their names and headers. -/
def textScope (catalog : String) (tables : List (String × List String)) : List ScopeColumn :=
  tables.flatMap fun (name, header) => header.map fun column =>
    ⟨fullName catalog name, column, .varchar⟩

theorem textScope_append (catalog : String) (tables more : List (String × List String)) :
    textScope catalog (tables ++ more) = textScope catalog tables ++ textScope catalog more :=
  List.flatMap_append

theorem scopeOf_ofTexts (catalog name : String) (t : TextTable) :
    scopeOf catalog (TableData.ofTexts name t) = textScope catalog [(name, t.header)] := by
  simp [scopeOf, TableData.ofTexts, textScope, Function.comp_def]

theorem type_of_mem_textScope {catalog : String} {tables : List (String × List String)}
    {c : ScopeColumn} (h : c ∈ textScope catalog tables) : c.type = .varchar := by
  obtain ⟨⟨name, header⟩, -, h⟩ := List.mem_flatMap.1 h
  obtain ⟨column, -, rfl⟩ := List.mem_map.1 h
  rfl

theorem table_of_mem_textScope {catalog : String} {tables : List (String × List String)}
    {c : ScopeColumn} (h : c ∈ textScope catalog tables) :
    ∃ name ∈ tables.map Prod.fst, c.table = fullName catalog name := by
  obtain ⟨⟨name, header⟩, htable, h⟩ := List.mem_flatMap.1 h
  obtain ⟨column, -, rfl⟩ := List.mem_map.1 h
  exact ⟨name, List.mem_map_of_mem htable, rfl⟩

theorem filter_zipIdx_eq_nil {α : Type} {p : α → Bool} {xs : List α}
    (h : ∀ x ∈ xs, p x = false) (n : Nat) : (xs.zipIdx n).filter (fun x => p x.1) = [] := by
  rw [List.filter_eq_nil_iff]
  rintro ⟨x, i⟩ hx
  rw [h x (List.fst_mem_of_mem_zipIdx hx)]
  simp

/-- An element that alone satisfies a condition is found with the number of those before it. -/
theorem filter_zipIdx_eq_singleton {α : Type} {p : α → Bool} {xs ys : List α} {x : α}
    (hxs : ∀ y ∈ xs, p y = false) (hx : p x = true) (hys : ∀ y ∈ ys, p y = false) :
    (xs ++ x :: ys).zipIdx.filter (fun y => p y.1) = [(x, xs.length)] := by
  have hcons : ((x, xs.length) :: ys.zipIdx (xs.length + 1)).filter (fun y => p y.1) =
      (x, xs.length) :: (ys.zipIdx (xs.length + 1)).filter fun y => p y.1 :=
    List.filter_cons_of_pos hx
  rw [List.zipIdx_append, List.filter_append, filter_zipIdx_eq_nil hxs, List.zipIdx_cons,
    Nat.zero_add, List.nil_append, hcons, filter_zipIdx_eq_nil hys]

theorem resolve_eq_ok {scope before after : List ScopeColumn} {name column : String}
    {x : ScopeColumn} (hscope : scope = before ++ x :: after)
    (hbefore : ∀ c ∈ before, (sameName c.name column && qualifies [name] c.table) = false)
    (hx : (sameName x.name column && qualifies [name] x.table) = true)
    (hafter : ∀ c ∈ after, (sameName c.name column && qualifies [name] c.table) = false) :
    resolve scope [name, column] = .ok before.length := by
  have hhits := filter_zipIdx_eq_singleton
    (p := fun c : ScopeColumn => sameName c.name column && qualifies [name] c.table)
    hbefore hx hafter
  rw [hscope]
  simp only [resolve, List.reverse_cons, List.reverse_nil, List.nil_append, List.singleton_append]
  simp only [hhits]

theorem not_hit_of_table {catalog name column : String} {tables : List (String × List String)}
    (h : ∀ other ∈ tables.map Prod.fst, lowerAscii name ≠ lowerAscii other) :
    ∀ c ∈ textScope catalog tables,
      (sameName c.name column && qualifies [name] c.table) = false := by
  intro c hc
  obtain ⟨other, hother, htable⟩ := table_of_mem_textScope hc
  have hname : sameName name other = false := by
    rw [Bool.eq_false_iff, ne_eq, sameName_iff]
    exact h other hother
  rw [htable, qualifies_fullName, hname, Bool.and_false]

theorem not_hit_of_header {catalog name column : String} {header : List String}
    (h : ∀ other ∈ header, lowerAscii other ≠ lowerAscii column) :
    ∀ c ∈ textScope catalog [(name, header)],
      (sameName c.name column && qualifies [name] c.table) = false := by
  intro c hc
  obtain ⟨table, htable, hc⟩ := List.mem_flatMap.1 hc
  cases List.mem_singleton.1 htable
  obtain ⟨other, hother, rfl⟩ := List.mem_map.1 hc
  have hcolumn : sameName other column = false := by
    rw [Bool.eq_false_iff, ne_eq, sameName_iff]
    exact h other hother
  rw [hcolumn, Bool.false_and]

/-- A column behind the name of its table is found at its place in the header of the table,
counted from the columns of the tables before. -/
theorem resolve_textScope (catalog : String) {name column : String} {header : List String}
    (before after : List (String × List String))
    (hheader : (header.map lowerAscii).Nodup) (hcolumn : column ∈ header)
    (hbefore : ∀ other ∈ before.map Prod.fst, lowerAscii name ≠ lowerAscii other)
    (hafter : ∀ other ∈ after.map Prod.fst, lowerAscii name ≠ lowerAscii other) :
    resolve (textScope catalog (before ++ (name, header) :: after)) [name, column] =
      .ok ((textScope catalog before).length + header.idxOf column) := by
  obtain ⟨left, right, rfl, hleft⟩ := List.eq_append_cons_of_mem hcolumn
  rw [List.map_append, List.map_cons, List.nodup_append, List.nodup_cons] at hheader
  obtain ⟨-, ⟨hright, -⟩, hdisjoint⟩ := hheader
  have hscope : textScope catalog (before ++ (name, left ++ column :: right) :: after) =
      (textScope catalog before ++ textScope catalog [(name, left)]) ++
        ⟨fullName catalog name, column, .varchar⟩ ::
          (textScope catalog [(name, right)] ++ textScope catalog after) := by
    simp [textScope]
  have hleft' : ∀ other ∈ left, lowerAscii other ≠ lowerAscii column := fun other hother =>
    hdisjoint _ (List.mem_map_of_mem hother) _ List.mem_cons_self
  have hright' : ∀ other ∈ right, lowerAscii other ≠ lowerAscii column := fun other hother heq =>
    hright (heq ▸ List.mem_map_of_mem hother)
  have hlength : (textScope catalog before ++ textScope catalog [(name, left)]).length =
      (textScope catalog before).length + (left ++ column :: right).idxOf column := by
    rw [List.idxOf_append_of_notMem hleft, List.idxOf_cons_self, List.length_append]
    simp [textScope]
  rw [resolve_eq_ok hscope, hlength]
  · intro c hc
    rcases List.mem_append.1 hc with hc | hc
    · exact not_hit_of_table hbefore c hc
    · exact not_hit_of_header hleft' c hc
  · rw [qualifies_fullName, Bool.and_eq_true, sameName_iff, sameName_iff]
    exact ⟨rfl, rfl⟩
  · intro c hc
    rcases List.mem_append.1 hc with hc | hc
    · exact not_hit_of_header hright' c hc
    · exact not_hit_of_table hafter c hc

theorem ne_of_nodup_map_append {α β : Type} {f : α → β} (xs : List α) {ys : List α}
    (h : ((xs ++ ys).map f).Nodup) {a b : α} (ha : a ∈ xs) (hb : b ∈ ys) : f a ≠ f b := by
  rw [List.map_append, List.nodup_append] at h
  exact h.2.2 _ (List.mem_map_of_mem ha) _ (List.mem_map_of_mem hb)

theorem exists_of_resolve {scope : List ScopeColumn} {name : Name} {i : Nat}
    (h : resolve scope name = .ok i) : ∃ c ∈ scope, scope[i]? = some c := by
  rw [resolve] at h
  split at h
  · cases h
  · dsimp only at h
    split at h
    · next hhits =>
      cases h
      have hmem := List.mem_of_mem_filter (hhits ▸ List.mem_singleton.2 rfl)
      have hget := List.mk_mem_zipIdx_iff_getElem?.1 hmem
      exact ⟨_, List.mem_of_getElem? hget, hget⟩
    · cases h

theorem bindJoins_cons {catalog : String} {d : Database} {scope full : List ScopeColumn}
    {j : PlanJoin} {joins : List PlanJoin} {t : TableData} {left right : Nat}
    {bound : List (TableData × Nat × Nat)} (htable : findTable catalog d j.table = .ok t)
    (hfresh : (scope.any fun c => sameNames c.table (fullName catalog t.name)) = false)
    (htypes : ∀ c ∈ scope ++ scopeOf catalog t, c.type = .varchar)
    (hleft : resolve (scope ++ scopeOf catalog t) j.left = .ok left)
    (hright : resolve (scope ++ scopeOf catalog t) j.right = .ok right)
    (hrest : bindJoins catalog d (scope ++ scopeOf catalog t) joins = .ok (full, bound)) :
    bindJoins catalog d scope (j :: joins) = .ok (full, (t, left, right) :: bound) := by
  obtain ⟨a, ha, hgetLeft⟩ := exists_of_resolve hleft
  obtain ⟨b, hb, hgetRight⟩ := exists_of_resolve hright
  have hcomparable : comparable a.type b.type = true := by
    rw [htypes a ha, htypes b hb]
    rfl
  rw [bindJoins]
  simp only [bind, Except.bind, htable, hfresh, hleft, hright, hgetLeft, hgetRight, hcomparable,
    hrest]
  rfl

/-- The tables of a chain of joins with the positions that they are joined on, `width` columns
standing before them. -/
def boundLinks (contents : Contents) (header : List String) (width : Nat) :
    List Link → List (TableData × Nat × Nat)
  | [] => []
  | k :: links =>
    (TableData.ofTexts k.name ⟨k.header, contents k.name⟩, header.idxOf k.left,
        width + k.header.idxOf k.right) ::
      boundLinks contents header (width + k.header.length) links

theorem scope_append_link (catalog base : String) (header : List String)
    (earlier : List (String × List String)) (k : Link) (rows : List (List String)) :
    textScope catalog ((base, header) :: earlier) ++
        scopeOf catalog (TableData.ofTexts k.name ⟨k.header, rows⟩) =
      textScope catalog ((base, header) :: (earlier ++ [k.named])) := by
  rw [scopeOf_ofTexts, ← textScope_append]
  rfl

/-- One join is bound when the name of its table is new and not that of the base table. -/
theorem bindJoins_link {catalog base : String} {d : Database} {header : List String} {k : Link}
    {rows : List (List String)} {earlier : List (String × List String)}
    (hheader : (header.map lowerAscii).Nodup) (hk : k.Fits header)
    (htable : d.table? k.name = some (TableData.ofTexts k.name ⟨k.header, rows⟩))
    (hbase : ∀ other ∈ (earlier ++ [k.named]).map Prod.fst, lowerAscii base ≠ lowerAscii other)
    (hname : ∀ other ∈ ((base, header) :: earlier).map Prod.fst,
      lowerAscii k.name ≠ lowerAscii other)
    {joins : List PlanJoin} {full : List ScopeColumn} {bound : List (TableData × Nat × Nat)}
    (hrest : bindJoins catalog d (textScope catalog ((base, header) :: (earlier ++ [k.named])))
      joins = .ok (full, bound)) :
    bindJoins catalog d (textScope catalog ((base, header) :: earlier)) (k.planJoin base :: joins) =
      .ok (full, (TableData.ofTexts k.name ⟨k.header, rows⟩, header.idxOf k.left,
        (textScope catalog ((base, header) :: earlier)).length + k.header.idxOf k.right) ::
          bound) := by
  have hscope := scope_append_link catalog base header earlier k rows
  rw [← hscope] at hrest
  apply bindJoins_cons (findTable_of_table? htable catalog) _ _ _ _ hrest
  · rw [List.any_eq_false]
    intro c hc
    obtain ⟨other, hother, htable⟩ := table_of_mem_textScope hc
    rw [htable, sameNames_fullName, sameName_iff]
    exact (hname other hother).symm
  · intro c hc
    rw [hscope] at hc
    exact type_of_mem_textScope hc
  · have hresolve := resolve_textScope catalog [] (earlier ++ [k.named]) hheader hk.left_mem
      (by simp) hbase
    rw [hscope]
    simpa [textScope, Link.planJoin] using hresolve
  · have hresolve := resolve_textScope catalog ((base, header) :: earlier) [] hk.columns_distinct
      hk.right_mem hname (by simp)
    rw [hscope]
    exact hresolve

/-- The names of a chain of joins on tables of texts can be bound, the left columns to the base
table and the right columns each to its own. -/
theorem bindJoins_links {catalog base : String} {d : Database} {contents : Contents}
    {header : List String} {links : List Link} (earlier : List (String × List String))
    (hheader : (header.map lowerAscii).Nodup) (hfits : ∀ k ∈ links, k.Fits header)
    (htables : ∀ k ∈ links, d.table? k.name =
      some (TableData.ofTexts k.name ⟨k.header, contents k.name⟩))
    (hnames : ((base :: (earlier.map Prod.fst ++ links.map Link.name)).map lowerAscii).Nodup) :
    bindJoins catalog d (textScope catalog ((base, header) :: earlier))
        (links.map (Link.planJoin base)) =
      .ok (textScope catalog ((base, header) :: (earlier ++ links.map Link.named)),
        boundLinks contents header (textScope catalog ((base, header) :: earlier)).length links) := by
  induction links generalizing earlier with
  | nil => simp [bindJoins, boundLinks]
  | cons k links ih =>
      have hrest := ih (earlier ++ [k.named]) (fun m hm => hfits m (List.mem_cons_of_mem k hm))
        (fun m hm => htables m (List.mem_cons_of_mem k hm)) (by simpa [Link.named] using hnames)
      have hbase : ∀ other ∈ (earlier ++ [k.named]).map Prod.fst,
          lowerAscii base ≠ lowerAscii other := by
        intro other hother
        apply ne_of_nodup_map_append [base] hnames (List.mem_singleton.2 rfl)
        rw [List.map_append] at hother
        rcases List.mem_append.1 hother with hother | hother
        · exact List.mem_append_left _ hother
        · rw [List.mem_singleton.1 hother]
          exact List.mem_append_right _ List.mem_cons_self
      have hname : ∀ other ∈ ((base, header) :: earlier).map Prod.fst,
          lowerAscii k.name ≠ lowerAscii other := by
        intro other hother
        rw [← List.cons_append] at hnames
        exact (ne_of_nodup_map_append (base :: earlier.map Prod.fst) hnames hother
          List.mem_cons_self).symm
      have hlength : (textScope catalog ((base, header) :: (earlier ++ [k.named]))).length =
          (textScope catalog ((base, header) :: earlier)).length + k.header.length := by
        rw [← scope_append_link catalog base header earlier k (contents k.name), List.length_append,
          scopeOf_ofTexts]
        simp [textScope]
      have hall : earlier ++ [k.named] ++ links.map Link.named =
          earlier ++ (k :: links).map Link.named := by
        simp
      rw [hlength, hall] at hrest
      exact bindJoins_link hheader (hfits k List.mem_cons_self) (htables k List.mem_cons_self)
        hbase hname hrest

end Evaluate

end TableQuery
