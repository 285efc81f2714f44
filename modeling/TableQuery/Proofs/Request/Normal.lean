import TableQuery.Proofs.Request.Fields
import TableQuery.Proofs.Request.Integer

/-!
# Requests in normal form

However a request was spelled, its limit and its offset are the numbers that the document says.
The request can be written out again, with the names in either style and the counts as numbers or
as texts. What is written is read as the same request. All this holds for every reader of integer
texts that keeps to the rules.
-/

namespace TableQuery.Request

open IntegerText (Rules Says countOfJson countOfJson_eq_ok_iff maxLength)

/-- The two styles of names. -/
inductive Naming
  | camelCase
  | snakeCase
  deriving DecidableEq

/-- The name in a style. -/
def Naming.choose : Naming → String → String → String
  | .camelCase, camel, _ => camel
  | .snakeCase, _, snake => snake

/-- The two forms of counts. -/
inductive Counting
  | number
  | decimalText
  deriving DecidableEq

/-- A count in a form. -/
def Counting.write : Counting → Nat → Json
  | .number, n => .int n
  | .decimalText, n => .text n.repr

/-- A join as a JSON object. -/
def writeJoin (naming : Naming) (j : JoinSpec) : Json :=
  .object [("table", .text j.table), (naming.choose "leftColumn" "left_column", .text j.leftColumn),
    (naming.choose "rightColumn" "right_column", .text j.rightColumn)]

/-- A value or null. -/
def orNullJson {α : Type} (write : α → Json) : Option α → Json
  | some a => write a
  | none => .null

/-- The members that a request is written as. -/
def written (naming : Naming) (counting : Counting) (r : Request) : List (String × Json) :=
  [("engine", .text r.engine), ("table", .text r.table),
    ("columns", orNullJson (fun columns => .array (columns.map .text)) r.columns),
    ("joins", .array (r.joins.map (writeJoin naming))), ("filter", orNullJson .text r.filter),
    (naming.choose "orderBy" "order_by", orNullJson .text r.orderBy),
    ("limit", orNullJson counting.write r.limit), ("offset", orNullJson counting.write r.offset),
    (naming.choose "exportSheetName" "export_sheet_name", orNullJson .text r.exportSheet)]

/-- The program writes requests in one of these ways. -/
theorem toJson_eq_object_written (r : Request) :
    r.toJson = .object (r.written .camelCase .decimalText) := by
  have htext (s : Option String) : textOrNull s = orNullJson .text s := by
    cases s <;> rfl
  have hcount (n : Option Nat) : countText n = orNullJson Counting.decimalText.write n := by
    cases n <;> rfl
  simp only [toJson, written, htext, hcount]
  cases r.columns <;> rfl

section Written

variable {readInteger : String → Checked Int} (naming : Naming)

theorem fieldOf_orNullJson {α : Type} {P : Json → α → Prop} {write : α → Json} {a : Option α}
    (h : ∀ b ∈ a, P (write b) b) : FieldOf P (some (orNullJson write a)) a := by
  cases a with
  | none => exact .null
  | some b => exact .value (h b rfl)

theorem areTexts_map (texts : List String) : AreTexts (.array (texts.map .text)) texts :=
  ⟨_, rfl, by simp [List.forall₂_map_left_iff, IsText, List.forall₂_same]⟩

theorem isJoin_writeJoin (j : JoinSpec) : IsJoin (writeJoin naming j) j := by
  refine ⟨_, rfl, ?_⟩
  cases naming <;> exact ⟨rfl, rfl, rfl⟩

theorem forall₂_isJoin (joins : List JoinSpec) :
    List.Forall₂ IsJoin (joins.map (writeJoin naming)) joins := by
  rw [List.forall₂_map_left_iff, List.forall₂_same]
  exact fun j _ => isJoin_writeJoin naming j

/-- What is written is read as the same request, when its counts are. -/
theorem reads_written {counting : Counting} {r : Request}
    (hlimit : ∀ n ∈ r.limit, countOfJson readInteger (counting.write n) = .ok n)
    (hoffset : ∀ n ∈ r.offset, countOfJson readInteger (counting.write n) = .ok n) :
    Reads readInteger (r.written naming counting) r := by
  have hcolumns : FieldOf AreTexts (some (orNullJson (fun columns => .array (columns.map .text))
      r.columns)) r.columns := fieldOf_orNullJson fun columns _ => areTexts_map columns
  have htext (s : Option String) : FieldOf IsText (some (orNullJson .text s)) s :=
    fieldOf_orNullJson fun _ _ => rfl
  have hjoins := JoinsOf.array (forall₂_isJoin naming r.joins)
  -- A name in the other style is absent, so the one that was written is found in both styles.
  cases naming <;>
    exact ⟨rfl, rfl, hcolumns, hjoins, htext _, htext _, fieldOf_orNullJson hlimit,
      fieldOf_orNullJson hoffset, htext _⟩

end Written

section Counts

variable {readInteger : String → Checked Int} {members : List (String × Json)} {n : Option Nat}
  {name : String}

theorem countOfJson_write_number (n : Nat) :
    countOfJson readInteger (Counting.number.write n) = .ok n :=
  countOfJson_eq_ok_iff.2 rfl

theorem countOfJson_write_decimalText (hrules : Rules readInteger) {n : Nat}
    (h : n < 10 ^ maxLength) : countOfJson readInteger (Counting.decimalText.write n) = .ok n :=
  countOfJson_eq_ok_iff.2 (hrules.decimal n h)

/-- A count that is read from a document is the number that the document says. -/
theorem says_of_countOfJson (hrules : Rules readInteger)
    (h : FieldOf (fun j n => countOfJson readInteger j = .ok n) (members.lookup name) n) :
    FieldOf (fun j (k : Nat) => Says j k) (members.lookup name) n :=
  h.mono fun _ _ hn => IntegerText.says_of_ofJson hrules (countOfJson_eq_ok_iff.1 hn)

/-- A count that is read from a document can be written as a text. -/
theorem lt_of_countOfJson (hrules : Rules readInteger) (hshort : (Json.object members).IsShort)
    (h : FieldOf (fun j n => countOfJson readInteger j = .ok n) (members.lookup name) n) :
    ∀ m ∈ n, m < 10 ^ maxLength := by
  generalize hj : members.lookup name = j at h
  cases h with
  | absent => simp
  | null => simp
  | @value j m hm =>
      intro m' hm'
      obtain rfl : m = m' := Option.some.inj hm'
      have hlt := IntegerText.natAbs_lt_of_ofJson hrules (hshort.of_lookup hj)
        (countOfJson_eq_ok_iff.1 hm)
      rwa [Int.natAbs_natCast] at hlt

end Counts

/-- A request is the normal form of an object: its counts are the numbers that the object says, of
several spellings of a field the first one counts, in the object and in its joins, and however the
request is written out, it is read again. -/
structure IsNormalForm (readInteger : String → Checked Int) (members : List (String × Json))
    (r : Request) : Prop where
  limit : FieldOf (fun j (k : Nat) => Says j k) (members.lookup "limit") r.limit
  offset : FieldOf (fun j (k : Nat) => Says j k) (members.lookup "offset") r.offset
  orderBy : FieldOf IsText ((members.lookup "orderBy").or (members.lookup "order_by")) r.orderBy
  exportSheet : FieldOf IsText ((members.lookup "exportSheetName").or
    ((members.lookup "exportName").or (members.lookup "export_sheet_name"))) r.exportSheet
  joins : JoinsOf (members.lookup "joins") r.joins
  overruled : ∀ spellings ∈ fieldSpellings, ∀ name, Overruled members spellings name →
    ∀ o value, ofJsonBy readInteger o (.object (Json.putMember name value members)) = .ok r
  overruledInJoin : ∀ before join after,
    members.lookup "joins" = some (.array (before ++ .object join :: after)) →
    ∀ spellings ∈ joinSpellings, ∀ name, Overruled join spellings name → ∀ o value,
      ofJsonBy readInteger o (.object (Json.putMember "joins"
        (.array (before ++ .object (Json.putMember name value join) :: after)) members)) = .ok r
  numbers : ∀ o naming, ofJsonBy readInteger o (.object (r.written naming .number)) = .ok r
  decimalTexts : ∀ s, Json.read s = .ok (.object members) →
    ∀ o naming, ofJsonBy readInteger o (.object (r.written naming .decimalText)) = .ok r

/-- A request is the normal form of every object that it is read from. -/
theorem isNormalForm_of_ofJson {readInteger : String → Checked Int} (hrules : Rules readInteger)
    {o : Origin} {members : List (String × Json)} {r : Request}
    (h : ofJsonBy readInteger o (.object members) = .ok r) :
    IsNormalForm readInteger members r := by
  have hreads : Reads readInteger members r := ofMembers_eq_ok_iff.1 h
  constructor
  case limit => exact says_of_countOfJson hrules hreads.limit
  case offset => exact says_of_countOfJson hrules hreads.offset
  case orderBy => exact hreads.orderBy
  case exportSheet => exact hreads.exportSheet
  case joins => exact hreads.joins
  case overruled =>
    intro spellings hmem name hname o' value
    exact (ofMembers_putMember hmem hname readInteger o' value).trans (ofMembers_eq_ok_iff.2 hreads)
  case overruledInJoin =>
    intro before join after hjoins spellings hmem name hname o' value
    have hitems := hreads.joins
    rw [hjoins] at hitems
    cases hitems with
    | array hitems =>
        exact ofMembers_eq_ok_iff.2
          (hreads.putJoins (forall₂_isJoin_putMember hmem hname value hitems))
  case numbers =>
    intro o' naming
    exact ofMembers_eq_ok_iff.2 (reads_written naming (fun n _ => countOfJson_write_number n)
      fun n _ => countOfJson_write_number n)
  case decimalTexts =>
    intro s hs o' naming
    have hshort := Json.isShort_of_read hs
    have hcount {n : Option Nat} {name : String} (hn : FieldOf
        (fun j n => countOfJson readInteger j = .ok n) (members.lookup name) n) :
        ∀ m ∈ n, countOfJson readInteger (Counting.decimalText.write m) = .ok m := fun m hm =>
      countOfJson_write_decimalText hrules (lt_of_countOfJson hrules hshort hn m hm)
    exact ofMembers_eq_ok_iff.2
      (reads_written naming (hcount hreads.limit) (hcount hreads.offset))

/-- A document with several spellings of fields. -/
def crowdedText : String :=
  "\x7b\"engine\":\"tabular\",\"table\":\"T\",\"orderBy\":null,\"order_by\":5," ++
    "\"joins\":[\x7b\"table\":\"U\",\"left_column\":5,\"leftColumn\":\"a\"," ++
    "\"right_column\":\"b\"\x7d]," ++
    "\"limit\":\"+07.0\",\"exportName\":null,\"export_sheet_name\":\"U\"\x7d"

def crowdedMembers : List (String × Json) :=
  [("engine", .text "tabular"), ("table", .text "T"), ("orderBy", .null), ("order_by", .int 5),
    ("joins", .array [.object [("table", .text "U"), ("left_column", .int 5),
      ("leftColumn", .text "a"), ("right_column", .text "b")]]),
    ("limit", .text "+07.0"), ("exportName", .null), ("export_sheet_name", .text "U")]

def crowdedRequest : Request :=
  { engine := "tabular", table := "T", joins := [⟨"U", "a", "b"⟩], limit := some 7 }

theorem isNormalForm_crowded :
    Json.read crowdedText = .ok (.object crowdedMembers) ∧
    ofJson .web (.object crowdedMembers) = .ok crowdedRequest ∧
    IntegerText.Rules IntegerText.read ∧
    IsNormalForm IntegerText.read crowdedMembers crowdedRequest ∧
    ofJson .document (.object (crowdedRequest.written .snakeCase .decimalText)) =
      .ok crowdedRequest := by
  have hread : Json.read crowdedText = .ok (.object crowdedMembers) := by cbv
  have hrequest : ofJson .web (.object crowdedMembers) = .ok crowdedRequest :=
    toOption_eq_some_iff.1 (by decide +kernel)
  have hrules := IntegerText.rules_read
  have hnormal := isNormalForm_of_ofJson hrules hrequest
  exact ⟨hread, hrequest, hrules, hnormal,
    hnormal.decimalTexts crowdedText hread .document .snakeCase⟩

end TableQuery.Request
