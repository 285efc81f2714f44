import TableQuery.Proofs.Database.Join
import TableQuery.Proofs.Database.Reading
import TableQuery.Proofs.Sql.Name
import TableQuery.Proofs.Tabular.Join
import TableQuery.Relational

/-!
# The engines on chains of joins

The request of a chain compiles to a statement that is read as the plan of the chain, and a
database answers it with the rows of the chain. A book that holds the same tables gives these rows
too, as long as no join changes a column that a later one reads.
-/

namespace TableQuery

open TableQuery.Text TableQuery.Sql

/-- The request of a chain, without any other clause. -/
def Chain.request (c : Chain) (engine : String) : Request where
  engine := engine
  table := c.base
  joins := c.links.map Link.spec

namespace Relational

theorem nameOf_ofName {s : String} (h : isName s = true) :
    Plan.nameOf (Identifier.ofName s h) = [s] := by
  simp [Plan.nameOf, Identifier.ofName]

theorem exists_joins {base : String} (hbase : isName base = true) {header : List String}
    (hheader : ∀ column ∈ header, isName column = true) {links : List Link}
    (hfits : ∀ k ∈ links, k.Fits header) :
    ∃ joins, List.Forall₂ (fun spec j => JoinClause.read base spec = .ok j)
        (links.map Link.spec) joins ∧
      joins.map (Plan.ofJoin (Identifier.ofName base hbase)) = links.map (Link.planJoin base) := by
  induction links with
  | nil => exact ⟨[], .nil, rfl⟩
  | cons k links ih =>
      have hk := hfits k List.mem_cons_self
      have hleft := hheader k.left hk.left_mem
      have hright := hk.columns_named k.right hk.right_mem
      obtain ⟨joins, hread, hplan⟩ := ih fun m hm => hfits m (List.mem_cons_of_mem k hm)
      refine ⟨⟨Identifier.ofName k.name hk.named, Identifier.ofName k.left hleft,
        Identifier.ofName k.right hright⟩ :: joins, .cons ?_ hread, ?_⟩
      · rw [JoinClause.read]
        simp only [Link.spec, Identifier.read_of_isName hk.named, Identifier.read_of_isName hbase,
          Identifier.read_of_isName hleft, Identifier.read_of_isName hright]
        rfl
      · rw [List.map_cons, List.map_cons, hplan]
        simp only [Plan.ofJoin, Link.planJoin, nameOf_ofName]
        rfl

/-- The statement of a chain is read as its plan. -/
theorem exists_compile_request (c : Chain) (engine : String) :
    ∃ stmt, Sql.compile .safe (c.request engine) = .ok stmt ∧
      Plan.ofStatement? stmt = some c.plan := by
  obtain ⟨joins, hread, hplan⟩ := exists_joins c.base_named c.columns_named c.fits
  have hselect : Select.ofRequest (c.request engine) =
      .ok ⟨[], Identifier.ofName c.base c.base_named, joins, none, none, none, none⟩ :=
    Select.ofRequest_eq_ok_iff.2
      ⟨.nil, Identifier.read_of_isName c.base_named "table", hread, .none, .none, rfl, rfl⟩
  refine ⟨_, by rw [Sql.compile, hselect]; rfl, ?_⟩
  rw [Plan.ofStatement?_statement, Plan.ofSelect, hplan, nameOf_ofName]
  rfl

theorem eq_plan_of_request {c : Chain} {engine : String} {stmt : Statement} {p : Plan}
    (hstmt : Sql.compile .safe (c.request engine) = .ok stmt)
    (hplan : Plan.ofStatement? stmt = some p) : c.plan = p := by
  obtain ⟨stmt', hstmt', hplan'⟩ := exists_compile_request c engine
  cases hstmt'.symm.trans hstmt
  exact Option.some.inj (hplan'.symm.trans hplan)

end Relational

namespace Answer

theorem cells_text_cons (name s : String) (rest : List (String × Datum)) :
    AnswerOf.cells Value.ofDatum ((name, .text s) :: rest) =
      (AnswerOf.cells Value.ofDatum rest).map fun tail => (name, .text s) :: tail := by
  rw [AnswerOf.cells]
  rfl

theorem cells_texts (columns : List String) (texts : List String) :
    AnswerOf.cells Value.ofDatum (columns.zip (texts.map .text)) =
      .ok ((columns.zip texts).map fun (name, s) => (name, Value.text s)) := by
  induction columns generalizing texts with
  | nil => rfl
  | cons name columns ih =>
      cases texts with
      | nil => rfl
      | cons s texts =>
          rw [List.map_cons, List.zip_cons_cons, List.zip_cons_cons, List.map_cons,
            cells_text_cons, ih]
          rfl

/-- An answer of texts becomes rows of texts. -/
theorem toResultSet_texts (columns : List String) (rows : List (List String)) :
    toResultSet ⟨columns, rows.map (List.map .text)⟩ =
      .ok { rows := rows.map (TextTable.rowOf columns) } := by
  have hrows : AnswerOf.rowsOf Value.ofDatum columns (rows.map (List.map .text)) =
      .ok (rows.map (TextTable.rowOf columns)) := by
    induction rows with
    | nil => rfl
    | cons texts rows ih =>
        have hrow : AnswerOf.rowOf Value.ofDatum columns (texts.map .text) =
            .ok (TextTable.rowOf columns texts) := by
          rw [AnswerOf.rowOf, cells_texts]
          rfl
        simp only [List.map_cons, AnswerOf.rowsOf, hrow, ih]
        rfl
  rw [toResultSet, AnswerOf.read, hrows]
  rfl

end Answer

theorem Relational.evaluate_plan {c : Chain} {contents : Contents} {d : Database}
    (hfull : c.Full contents) (h : c.InDatabase contents d) (catalog : String) :
    Relational.evaluate catalog d c.plan =
      .ok { rows := (c.rows contents).map (TextTable.rowOf c.columns) } := by
  simp only [Relational.evaluate, Chain.run_plan hfull h, Answer.toResultSet_texts]

theorem Tabular.rows_request {c : Chain} {contents : Contents} {b : Book}
    (h : c.InBook contents b) (engine : String) :
    Tabular.rows none b (c.request engine) =
      Tabular.joinSheets b ((contents c.base).map (TextTable.rowOf c.header))
        (c.links.map Link.spec) := by
  have hview : ∀ rows, view (c.request engine) rows = rows := by
    intro rows
    simp [view, Chain.request, Request.projection, Rows.page, slice]
  have hview' : view (c.request engine) = id := funext hview
  rw [Tabular.rows, hview', fullRows]
  simp only [Chain.request, h.load_base, checkDeadline_none]
  cases joinSheets b ((contents c.base).map (TextTable.rowOf c.header)) (c.links.map Link.spec) with
  | error e => rfl
  | ok joined => rfl

/-- Both engines answer a request, with the same rows in some order: a database reads the plan of
the statement that the request compiles to. -/
def SameRows (catalog : String) (d : Database) (b : Book) (r : Request) : Prop :=
  ∃ stmt plan answer rows, Sql.compile .safe r = .ok stmt ∧ Plan.ofStatement? stmt = some plan ∧
    Relational.evaluate catalog d plan = .ok answer ∧
    Tabular.rows none b r = .ok rows ∧ answer.rows.Perm rows

/-- Both stores hold the tables of a chain with the same contents. -/
structure Chain.HeldAlike (c : Chain) (contents : Contents) (d : Database) (b : Book) : Prop where
  full : c.Full contents
  inDatabase : c.InDatabase contents d
  inBook : c.InBook contents b

/-- Both engines give the rows of a chain in which no join changes what a later one reads. -/
theorem Chain.sameRows_of_keeps {c : Chain} (hkeeps : c.links.Pairwise Link.Keeps)
    {contents : Contents} {d : Database} {b : Book} (h : c.HeldAlike contents d b)
    (catalog engine : String) : SameRows catalog d b (c.request engine) := by
  obtain ⟨stmt, hstmt, hplan⟩ := Relational.exists_compile_request c engine
  refine ⟨stmt, _, _, _, hstmt, hplan, Relational.evaluate_plan h.full h.inDatabase catalog, ?_,
    .refl _⟩
  rw [Tabular.rows_request h.inBook]
  exact Chain.joinSheets_rows h.full h.inBook hkeeps

end TableQuery
