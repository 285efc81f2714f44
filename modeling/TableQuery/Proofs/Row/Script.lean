import TableQuery.Proofs.Row.Parts

/-!
# Scripts on rows

Several rows are alive at once, each kept in two parts. A script makes new ones, from cells or
from rows that are there, and assigns to those that are there. A new row is filled cell by cell
while the rows that it is made of stand beside it, so these stay as they are. Whatever a script
does, the parts of every row agree, and they show the row that the operations on rows give.
-/

namespace TableQuery.Row

section Places

variable {α β : Type} {n : Nat}

theorem getElem_push_castSucc (xs : Vector α n) (x : α) (k : Fin n) :
    (xs.push x)[k.castSucc] = xs[k] :=
  Vector.getElem_push_lt k.isLt

theorem getElem_push_last (xs : Vector α n) (x : α) : (xs.push x)[Fin.last n] = x :=
  Vector.getElem_push_eq

theorem set_push_last (xs : Vector α n) (x y : α) :
    (xs.push x).set (Fin.last n) y = xs.push y := by
  rw [Vector.set_push]
  simp

theorem getElem_set_of_ne (xs : Vector α n) (x : α) {i k : Fin n} (h : k ≠ i) :
    (xs.set i x)[k] = xs[k] :=
  Vector.getElem_set_ne i.isLt k.isLt fun heq => h (Fin.ext heq.symm)

/-- Two vectors are related place by place. -/
def Beside (R : α → β → Prop) (xs : Vector α n) (ys : Vector β n) : Prop :=
  ∀ k : Fin n, R xs[k] ys[k]

namespace Beside

variable {R : α → β → Prop} {xs : Vector α n} {ys : Vector β n} {x : α} {y : β}

theorem nil : Beside R #v[] #v[] :=
  fun k => k.elim0

theorem push (h : Beside R xs ys) (hxy : R x y) : Beside R (xs.push x) (ys.push y) := by
  intro k
  induction k using Fin.lastCases with
  | last =>
      rw [getElem_push_last, getElem_push_last]
      exact hxy
  | cast k =>
      rw [getElem_push_castSucc, getElem_push_castSucc]
      exact h k

theorem set (h : Beside R xs ys) {i : Fin n} (hxy : R x y) :
    Beside R (xs.set i x) (ys.set i y) := by
  intro k
  by_cases hk : k = i
  · subst hk
    rw [Fin.getElem_fin, Fin.getElem_fin, Vector.getElem_set_self, Vector.getElem_set_self]
    exact hxy
  · rw [getElem_set_of_ne xs x hk, getElem_set_of_ne ys y hk]
    exact h k

end Beside

end Places

/-- Rows that are alive at once, each in two parts. -/
abbrev Rack (n : Nat) := Vector Parts n

namespace Rack

variable {n : Nat}

/-- Assigns listed cells of one row to another one. A cell is read before its name is looked at. -/
def copy (source target : Fin n) (passes : String → Bool) :
    List String → Rack n → Except MissingCell (Rack n)
  | [], rack => .ok rack
  | name :: names, rack =>
    match rack[source].cell name with
    | .error e => .error e
    | .ok value =>
      copy source target passes names
        (if passes name then rack.set target (rack[target].set name value) else rack)

/-- Assigns the cells of one row to another one, in the order of its columns. -/
def fill (source target : Fin n) (passes : String → Bool) (rack : Rack n) :
    Except MissingCell (Rack n) :=
  -- The columns are listed once: a row is only filled from others, whose columns stay.
  rack.copy source target passes rack[source].columns

/-- A new row takes the cells that pass, and the others stay as they are. -/
theorem copy_push {rack : Rack n} {source : Fin n} {cells : List (String × Value)}
    (h : ∀ cell ∈ cells, rack[source].cell cell.1 = .ok cell.2) (passes : String → Bool)
    (p : Parts) :
    copy source.castSucc (Fin.last n) passes (cells.map Prod.fst) (rack.push p) =
      .ok (rack.push (p.setAll (cells.filter fun cell => passes cell.1))) := by
  induction cells generalizing p with
  | nil => rfl
  | cons cell cells ih =>
      obtain ⟨name, value⟩ := cell
      rw [List.forall_mem_cons] at h
      rw [List.map_cons, copy, getElem_push_castSucc, h.1, List.filter_cons]
      cases passes name with
      | true =>
          simp only [if_true, getElem_push_last, set_push_last]
          exact ih h.2 (p.set name value)
      | false =>
          simp only [Bool.false_eq_true, if_false]
          exact ih h.2 p

theorem fill_push {rack : Rack n} {source : Fin n} {r : Row} (h : rack[source].Shows r)
    (passes : String → Bool) (p : Parts) :
    fill source.castSucc (Fin.last n) passes (rack.push p) =
      .ok (rack.push (p.setAll (r.cells.filter fun cell => passes cell.1))) := by
  rw [fill, getElem_push_castSucc, h.columns]
  exact copy_push (fun _ hcell => h.cell_of_mem hcell) passes p

end Rack

/-- The scripts after which `n` rows are alive. -/
inductive Script : Nat → Type
  | start : Script 0
  | make {n : Nat} (p : Script n) (cells : List (String × Value)) : Script (n + 1)
  | set {n : Nat} (p : Script n) (k : Fin n) (name : String) (value : Value) : Script n
  | merge {n : Nat} (p : Script n) (left right : Fin n) : Script (n + 1)
  | project {n : Nat} (p : Script n) (k : Fin n) (names : List String) : Script (n + 1)

namespace Script

/-- The rows that a script leaves, in two parts. -/
def run {n : Nat} : Script n → Except MissingCell (Rack n)
  | start => .ok #v[]
  | make p cells => do
    let rack ← p.run
    return rack.push (.ofList cells)
  | set p k name value => do
    let rack ← p.run
    return rack.set k (rack[k].set name value)
  | @merge n p left right => do
    let rack ← p.run
    let copied ← Rack.fill left.castSucc (Fin.last n) (fun _ => true) (rack.push {})
    Rack.fill right.castSucc (Fin.last n) (fun _ => true) copied
  | @project n p k names => do
    let rack ← p.run
    Rack.fill k.castSucc (Fin.last n) names.contains (rack.push {})

/-- The rows that a script leaves. -/
def rows {n : Nat} : Script n → Vector Row n
  | start => #v[]
  | make p cells => p.rows.push (.ofList cells)
  | set p k name value => p.rows.set k (p.rows[k].set name value)
  | merge p left right => p.rows.push (p.rows[left].merge p.rows[right])
  | project p k names => p.rows.push (p.rows[k].project names)

/-- What was assigned to each row, first to last. A row that is made of others takes over what was
assigned to them. -/
def history {n : Nat} : Script n → Vector (List (String × Value)) n
  | start => #v[]
  | make p cells => p.history.push cells
  | set p k name value => p.history.set k (p.history[k] ++ [(name, value)])
  | merge p left right => p.history.push (p.history[left] ++ p.history[right])
  | project p k names =>
    p.history.push (p.history[k].filter fun cell => names.contains cell.1)

section Run

variable {n : Nat} {p : Script n} {rack : Rack n}

theorem run_make (h : p.run = .ok rack) (cells : List (String × Value)) :
    (p.make cells).run = .ok (rack.push (.ofList cells)) := by
  rw [run, h]
  rfl

theorem run_set (h : p.run = .ok rack) (k : Fin n) (name : String) (value : Value) :
    (p.set k name value).run = .ok (rack.set k (rack[k].set name value)) := by
  rw [run, h]
  rfl

/-- A merged row is made from the cells of both rows, which stay as they are. -/
theorem run_merge (h : p.run = .ok rack) {left right : Fin n} {l r : Row}
    (hleft : rack[left].Shows l) (hright : rack[right].Shows r) :
    (p.merge left right).run = .ok (rack.push (.ofList (l.cells ++ r.cells))) := by
  have hfirst := Rack.fill_push hleft (fun _ => true) {}
  have hsecond := Rack.fill_push hright (fun _ => true) (.ofList l.cells)
  rw [List.filter_true] at hfirst hsecond
  rw [run, h, Parts.ofList, Parts.setAll_append]
  exact bind_eq_ok_iff.2 ⟨_, rfl, bind_eq_ok_iff.2 ⟨_, hfirst, hsecond⟩⟩

theorem run_project (h : p.run = .ok rack) {k : Fin n} {r : Row} (hk : rack[k].Shows r)
    (names : List String) :
    (p.project k names).run =
      .ok (rack.push (.ofList (r.cells.filter fun cell => names.contains cell.1))) := by
  rw [run, h]
  exact bind_eq_ok_iff.2 ⟨_, rfl, Rack.fill_push hk names.contains {}⟩

end Run

/-- Every row is made by all that was assigned to it. -/
theorem rows_beside_history {n : Nat} (p : Script n) :
    Beside (fun row cells => row = ofList cells) p.rows p.history := by
  induction p with
  | start => exact .nil
  | make p cells ih => exact ih.push rfl
  | set p k name value ih =>
      refine ih.set ?_
      rw [ofList_append_singleton, ih k]
  | merge p left right ih =>
      refine ih.push ?_
      rw [ofList_append, ih left, ih right]
  | project p k names ih =>
      refine ih.push ?_
      rw [← project_ofList, ih k]

/-- A script runs without fail, and its rows in two parts show the rows that it leaves. -/
theorem exists_run {n : Nat} (p : Script n) :
    ∃ rack, p.run = .ok rack ∧ Beside Parts.Shows rack p.rows := by
  induction p with
  | start => exact ⟨#v[], rfl, .nil⟩
  | make p cells ih =>
      obtain ⟨rack, hrun, hshows⟩ := ih
      exact ⟨_, run_make hrun cells, hshows.push (Parts.shows_empty.setAll cells)⟩
  | set p k name value ih =>
      obtain ⟨rack, hrun, hshows⟩ := ih
      exact ⟨_, run_set hrun k name value, hshows.set ((hshows k).set name value)⟩
  | merge p left right ih =>
      obtain ⟨rack, hrun, hshows⟩ := ih
      refine ⟨_, run_merge hrun (hshows left) (hshows right), hshows.push ?_⟩
      rw [merge_eq_ofList]
      exact Parts.shows_empty.setAll _
  | project p k names ih =>
      obtain ⟨rack, hrun, hshows⟩ := ih
      refine ⟨_, run_project hrun (hshows k) names, hshows.push ?_⟩
      rw [← ofList_cells p.rows[k], project_ofList, ofList_cells]
      exact Parts.shows_empty.setAll _

/-- What is known of the rows that a script leaves. They are assigned to without fail, each has a
cell for every listed column and for no other name, and whatever is read of a row agrees with all
else that is read of it. An assignment changes one column of one row, and a new row changes none
of those that are there. -/
structure Kept {n : Nat} (p : Script n) (rack : Rack n) : Prop where
  run : p.run = .ok rack
  shows : ∀ k : Fin n, rack[k].Shows p.rows[k]
  nodup : ∀ k : Fin n, rack[k].columns.Nodup
  mem_cells_iff : ∀ (k : Fin n) name, name ∈ rack[k].cells ↔ name ∈ rack[k].columns
  columns : ∀ k : Fin n, rack[k].columns = (p.history[k].map Prod.fst).eraseDups
  get? : ∀ (k : Fin n) name, rack[k].get? name = p.history[k].reverse.lookup name
  values : ∀ k : Fin n, rack[k].values = .ok p.rows[k].values
  items : ∀ k : Fin n, rack[k].items = .ok p.rows[k].cells
  record : ∀ k : Fin n, rack[k].record = .ok p.rows[k].record
  aligned : ∀ k : Fin n, ∃ values, rack[k].values = .ok values ∧ values.length = rack[k].length ∧
    rack[k].items = .ok (rack[k].columns.zip values) ∧
    rack[k].record = .ok (rack[k].columns.zip (values.map Value.primitive))
  set : ∀ (k : Fin n) name value, ∃ rack', (p.set k name value).run = .ok rack' ∧
    (∀ other, other ≠ name → rack'[k].get? other = rack[k].get? other) ∧
    ∀ j, j ≠ k → rack'[j] = rack[j]
  merge : ∀ left right, ∃ l r, rack[left].items = .ok l ∧ rack[right].items = .ok r ∧
    (p.merge left right).run = .ok (rack.push (.ofList (l ++ r)))
  project : ∀ (k : Fin n) names, ∃ cells, rack[k].items = .ok cells ∧
    (p.project k names).run =
      .ok (rack.push (.ofList (cells.filter fun cell => names.contains cell.1)))

/-- The rows of every script are kept. -/
theorem exists_kept {n : Nat} (p : Script n) : ∃ rack, p.Kept rack := by
  obtain ⟨rack, hrun, hshows⟩ := p.exists_run
  refine ⟨rack, ?_⟩
  constructor
  case run => exact hrun
  case shows => exact hshows
  case nodup => exact fun k => (hshows k).nodup
  case mem_cells_iff => exact fun k name => (hshows k).has_iff name
  case columns =>
    intro k
    rw [(hshows k).columns, p.rows_beside_history k, columns_ofList_eq_eraseDups]
  case get? =>
    intro k name
    rw [(hshows k).get?, p.rows_beside_history k, get?_ofList]
  case values => exact fun k => (hshows k).values
  case items => exact fun k => (hshows k).items
  case record => exact fun k => (hshows k).record
  case aligned => exact fun k => (hshows k).aligned
  case set =>
    intro k name value
    refine ⟨_, run_set hrun k name value, fun other hother => ?_, fun j hj => ?_⟩
    · rw [Fin.getElem_fin, Vector.getElem_set_self, Parts.get?_set, if_neg hother]
    · exact getElem_set_of_ne rack _ hj
  case merge =>
    exact fun left right => ⟨_, _, (hshows left).items, (hshows right).items,
      run_merge hrun (hshows left) (hshows right)⟩
  case project =>
    exact fun k names => ⟨_, (hshows k).items, run_project hrun (hshows k) names⟩

end Script

end TableQuery.Row
