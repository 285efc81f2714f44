import TableQuery.Proofs.Sheet.Texts
import TableQuery.Proofs.Workbook.Replacing

/-!
# Written sheets

A sheet that was written has a row of cells for the header of its table and one for each of the
rows below. Each cell holds its text, the first 32767 characters of it with line feeds for all line
breaks; an empty text leaves its cell blank. The sheet is the last one of its workbook. Texts that
a file keeps are read from the cells that they were written into.
-/

namespace TableQuery

open TableQuery.Text

namespace Cell

/-- A text and the text with a line feed for each of its line breaks. -/
inductive FeedsLines : List Char → List Char → Prop
  | nil : FeedsLines [] []
  | pair {s t : List Char} (h : FeedsLines s t) : FeedsLines ('\r' :: '\n' :: s) ('\n' :: t)
  | single {s t : List Char} (hs : ∀ c ∈ s.head?, c ≠ '\n') (h : FeedsLines s t) :
      FeedsLines ('\r' :: s) ('\n' :: t)
  | other {c : Char} {s t : List Char} (hc : c ≠ '\r') (h : FeedsLines s t) :
      FeedsLines (c :: s) (c :: t)

theorem lineFeeds_true {s : List Char} (h : ∀ c ∈ s.head?, c ≠ '\n') :
    lineFeeds true s = lineFeeds false s := by
  cases s with
  | nil => rfl
  | cons c s =>
      have hc : c ≠ '\n' := h c rfl
      rw [lineFeeds, lineFeeds, if_neg (not_and_of_not_left _ hc),
        if_neg (not_and_of_not_left _ hc)]

theorem feedsLines_lineFeeds (s : List Char) : FeedsLines s (lineFeeds false s) := by
  -- A pair of characters may be one line break, so the shorter rests are needed, not just the tail.
  induction hn : s.length using Nat.strongRecOn generalizing s with
  | ind n ih =>
      subst hn
      cases s with
      | nil => exact .nil
      | cons c s =>
          rw [lineFeeds]
          by_cases hc : c = '\r'
          · subst hc
            rw [if_pos rfl]
            by_cases hs : ∃ rest, s = '\n' :: rest
            · obtain ⟨rest, rfl⟩ := hs
              exact .pair (ih rest.length (by simp only [List.length_cons]; omega) rest rfl)
            · have hhead : ∀ d ∈ s.head?, d ≠ '\n' := by
                rintro d hd rfl
                exact hs (List.head?_eq_some_iff.1 hd)
              rw [lineFeeds_true hhead]
              exact .single hhead (ih _ (by simp) s rfl)
          · rw [if_neg hc, if_neg (by simp)]
            exact .other hc (ih _ (by simp) s rfl)

/-- The cell holds a text. -/
inductive Holds (bold : Bool) : String → Option Cell → Prop
  | blank : Holds bold "" (some ⟨.null, bold⟩)
  | text {s t : String} (hne : s ≠ "") (h : FeedsLines (s.toList.take 32767) t.toList) :
      Holds bold s (some ⟨.text t, bold⟩)

/-- The texts that are read as they were written. -/
def IsStored (s : String) : Prop :=
  s = "" ∨ IsPlain s

instance (s : String) : Decidable (IsStored s) :=
  inferInstanceAs (Decidable (s = "" ∨ IsPlain s))

/-- What the cell of a stored text holds. -/
def ofText (s : String) : Datum :=
  if s = "" then .null else .text s

theorem showsTexts_ofText : Grid.ShowsTexts ofText := by
  intro s
  rw [ofText]
  split_ifs with hs
  · subst hs
    exact ⟨rfl, rfl⟩
  · exact ⟨rfl, rfl⟩

theorem shown_ofText {s : String} (h : IsStored s) : shown (ofText s) = ofText s := by
  rcases h with rfl | hplain
  · rfl
  · rw [ofText, if_neg hplain.1, shown, hplain.2.2.2.2, if_neg Bool.false_ne_true]

theorem written_text {s : String} (h : IsStored s) : written (.text s) = .ok (ofText s) := by
  rcases h with rfl | hplain
  · rfl
  · have hwritten : written (.text s) =
        .ok (if s = "" then .null else .text (String.ofList (lineFeeds false s.toList))) := rfl
    rw [hwritten, ofText, if_neg hplain.1, if_neg hplain.1,
      lineFeeds_of_not_mem hplain.2.2.2.1, String.ofList_toList]

theorem isIllegal_eq_false {c : Char} (h : isMarkup c = true) : isIllegal c = false := by
  simp only [isMarkup, isIllegal, Bool.or_eq_true, Bool.and_eq_true, beq_iff_eq, bne_iff_ne,
    decide_eq_true_eq, Bool.or_eq_false_iff, Bool.and_eq_false_iff, beq_eq_false_iff_ne,
    decide_eq_false_iff_not] at h ⊢
  omega

theorem accept_text {s : String} (h : IsStored s) : accept (.text s) = .ok (.text s) := by
  rcases h with rfl | ⟨-, hlength, hlegal, -⟩
  · rfl
  · have htake : s.toList.take maxLength = s.toList := List.take_of_length_le hlength
    have haccept : accept (.text s) = acceptText s := rfl
    have hnone : s.toList.any isIllegal = false := by
      rw [List.any_eq_false]
      intro c hc
      rw [isIllegal_eq_false (hlegal c hc)]
      exact Bool.false_ne_true
    simp only [haccept, acceptText, htake, String.ofList_toList, hnone, Bool.false_eq_true,
      if_false]

theorem accept_text_eq_ok {s : String} {d : Datum} (h : accept (.text s) = .ok d) :
    d = .text (String.ofList (s.toList.take maxLength)) := by
  have haccept : accept (.text s) = acceptText s := rfl
  rw [haccept, acceptText] at h
  split at h
  · cases h
  · exact (Except.ok.inj h).symm

end Cell

namespace Sheet

theorem writeText_eq_ok {s : String} (h : Cell.IsStored s) (bold : Bool) :
    writeText bold s = .ok (some ⟨Cell.ofText s, bold⟩) :=
  bind_eq_ok_iff.2 ⟨_, Cell.accept_text h, bind_eq_ok_iff.2 ⟨_, Cell.written_text h, rfl⟩⟩

/-- What is written into a cell is held by it. -/
theorem holds_of_writeText {bold : Bool} {s : String} {cell : Option Cell}
    (h : writeText bold s = .ok cell) : Cell.Holds bold s cell := by
  obtain ⟨accepted, haccept, h⟩ := bind_eq_ok_iff.1 h
  obtain ⟨value, hwritten, h⟩ := bind_eq_ok_iff.1 h
  obtain rfl := Cell.accept_text_eq_ok haccept
  cases h
  cases hwritten
  by_cases hs : s = ""
  · subst hs
    exact .blank
  · have hne : String.ofList (s.toList.take Cell.maxLength) ≠ "" := by
      rw [ne_eq, ← String.toList_inj, String.toList_ofList, String.toList_empty,
        List.take_eq_nil_iff, String.toList_eq_nil_iff]
      simp [hs, Cell.maxLength]
    rw [if_neg hne]
    refine .text hs ?_
    rw [String.toList_ofList, String.toList_ofList]
    exact Cell.feedsLines_lineFeeds _

/-- The cells hold texts, one after the other. -/
def RowHolds (bold : Bool) : List String → List (Option Cell) → Prop :=
  List.Forall₂ (Cell.Holds bold)

theorem rowHolds_of_mapM {bold : Bool} {texts : List String} {cells : List (Option Cell)}
    (h : texts.mapM (writeText bold) = .ok cells) : RowHolds bold texts cells :=
  (mapM_eq_ok_iff.1 h).imp fun _ _ => holds_of_writeText

/-- Rows that are written are written text by text. -/
theorem mapM_of_writeTexts {rows : List (List String)} {body : List (List (Option Cell))}
    (h : rows.zipIdx.mapM (fun (texts, i) => writeTexts texts i) = .ok body) :
    rows.mapM (fun texts => texts.mapM (writeText false)) = .ok body := by
  rw [mapM_eq_ok_iff] at h ⊢
  rw [← List.zipIdx_map_fst 0 rows, List.forall₂_map_left_iff]
  refine h.imp fun (texts, i) cells hrow => ?_
  change writeTexts texts i = .ok cells at hrow
  rw [writeTexts] at hrow
  split_ifs at hrow
  exact hrow

theorem exists_of_write {title : String} {names : List String} {t : TextTable} {s : Sheet}
    (h : write title names t = .ok s) :
    s.title = title ∧ ∃ header body, s.rows = header :: body ∧ RowHolds true t.header header ∧
      List.Forall₂ (RowHolds false) t.rows body := by
  obtain ⟨header, hheader, h⟩ := bind_eq_ok_iff.1 h
  obtain ⟨body, hbody, h⟩ := bind_eq_ok_iff.1 h
  obtain ⟨tables, -, h⟩ := bind_eq_ok_iff.1 h
  obtain ⟨widths, -, h⟩ := bind_eq_ok_iff.1 h
  cases h
  refine ⟨rfl, header, body, rfl, rowHolds_of_mapM hheader, ?_⟩
  exact (mapM_eq_ok_iff.1 (mapM_of_writeTexts hbody)).imp fun _ _ => rowHolds_of_mapM

theorem mapM_writeText {texts : List String} (h : ∀ s ∈ texts, Cell.IsStored s) (bold : Bool) :
    texts.mapM (writeText bold) = .ok (texts.map fun s => some ⟨Cell.ofText s, bold⟩) :=
  mapM_eq_ok_map fun s hs => writeText_eq_ok (h s hs) bold

theorem length_longest_le {rows : List (List String)} {n : Nat}
    (h : ∀ texts ∈ rows, texts.length ≤ n) : (longest rows).length ≤ n := by
  induction rows with
  | nil => exact Nat.zero_le n
  | cons texts rows ih =>
      rw [List.forall_mem_cons] at h
      rw [longest, List.length_map, List.length_range, List.length_map]
      exact Nat.max_le.2 ⟨h.1, ih h.2⟩

/-- A table is as wide as its header. -/
theorem exists_widthsOf {t : TextTable} (h : t.header.length ≤ maxColumns)
    (hrows : ∀ row ∈ t.rows, row.length = t.header.length) : ∃ widths, widthsOf t = .ok widths := by
  have hlongest : (longest (t.header :: t.rows)).length ≤ t.header.length :=
    length_longest_le (List.forall_mem_cons.2 ⟨Nat.le_refl _, fun row hrow => (hrows row hrow).le⟩)
  exact ⟨_, if_neg (Nat.not_lt.2 (hlongest.trans h))⟩

theorem exists_tablesOver_iff (names : List String) (title : String) {t : TextTable} :
    (∃ tables, tablesOver names title t = .ok tables) ↔ t.header.length ≤ maxColumns := by
  rw [tablesOver]
  by_cases hempty : t.header = []
  · simp [hempty]
  · have hpos : t.header.length ≠ 0 := by simpa using hempty
    rw [if_neg (by simpa using hempty), rangeTo, columnLetters]
    by_cases hwide : maxColumns < t.header.length
    · rw [if_pos (.inr hwide)]
      simp [Except.map, hwide]
    · rw [if_neg (not_or.2 ⟨hpos, hwide⟩)]
      simp [Except.map, Nat.not_lt.1 hwide]

/-- Rows that are not empty are written when there is a row of the sheet for each below its
header. -/
theorem exists_mapM_writeTexts_iff {rows : List (List String)}
    (h : ∀ texts ∈ rows, ∀ s ∈ texts, Cell.IsStored s) (hne : ∀ texts ∈ rows, texts ≠ []) :
    (∃ body, rows.zipIdx.mapM (fun (texts, i) => writeTexts texts i) = .ok body) ↔
      rows.length < maxRows := by
  simp only [mapM_eq_ok_iff, exists_forall₂_iff]
  constructor
  · intro hwritten
    by_contra hlong
    have hlast : maxRows - 1 < rows.length := Nat.lt_of_lt_of_le (by decide) (Nat.not_lt.1 hlong)
    obtain ⟨cells, hcells⟩ :=
      hwritten _ (List.mk_mem_zipIdx_iff_getElem?.2 (List.getElem?_eq_getElem hlast))
    rw [writeTexts, if_pos ⟨Nat.lt_succ_self _, hne _ (List.getElem_mem hlast)⟩] at hcells
    cases hcells
  · rintro hshort ⟨texts, i⟩ hmem
    obtain ⟨hi, rfl⟩ := List.getElem?_eq_some_iff.1 (List.mk_mem_zipIdx_iff_getElem?.1 hmem)
    refine ⟨_, (if_neg (not_and_of_not_left _ ?_)).trans
      (mapM_writeText (h _ (List.getElem_mem hi)) _)⟩
    omega

/-- A sheet of stored texts below a header is written when there are columns and rows for all of
them. -/
theorem exists_write_iff {t : TextTable}
    (h : ∀ texts ∈ t.header :: t.rows, ∀ s ∈ texts, Cell.IsStored s) (hne : t.header ≠ [])
    (hrows : ∀ row ∈ t.rows, row.length = t.header.length) (title : String) (names : List String) :
    (∃ s, write title names t = .ok s) ↔
      t.header.length ≤ maxColumns ∧ t.rows.length < maxRows := by
  obtain ⟨hheader, hbody⟩ := List.forall_mem_cons.1 h
  have hfilled : ∀ row ∈ t.rows, row ≠ [] := by
    rintro row hrow rfl
    exact hne (List.length_eq_zero_iff.1 (hrows [] hrow).symm)
  rw [← exists_tablesOver_iff names title,
    ← exists_mapM_writeTexts_iff hbody hfilled]
  constructor
  · rintro ⟨s, hs⟩
    obtain ⟨header, -, hs⟩ := bind_eq_ok_iff.1 hs
    obtain ⟨body, hbody, hs⟩ := bind_eq_ok_iff.1 hs
    obtain ⟨tables, htables, -⟩ := bind_eq_ok_iff.1 hs
    exact ⟨⟨tables, htables⟩, body, hbody⟩
  · rintro ⟨htables, body, hbody⟩
    have hnames := (exists_tablesOver_iff names title).1 htables
    obtain ⟨widths, hwidths⟩ := exists_widthsOf hnames hrows
    obtain ⟨tables, htables⟩ := htables
    exact ⟨_, bind_eq_ok_iff.2 ⟨_, mapM_writeText hheader true, bind_eq_ok_iff.2 ⟨body, hbody,
      bind_eq_ok_iff.2 ⟨tables, htables, bind_eq_ok_iff.2 ⟨widths, hwidths, rfl⟩⟩⟩⟩⟩

/-- The written sheet of stored texts shows each of them where it was written. -/
theorem grid_of_write {t : TextTable}
    (h : ∀ texts ∈ t.header :: t.rows, ∀ s ∈ texts, Cell.IsStored s) {title : String}
    {names : List String} {s : Sheet} (hs : write title names t = .ok s) :
    s.grid = (t.header :: t.rows).map (List.map Cell.ofText) := by
  obtain ⟨hheader, hrows⟩ := List.forall_mem_cons.1 h
  have hbody' : t.rows.mapM (fun row => row.mapM (writeText false)) = _ :=
    mapM_eq_ok_map fun row hrow => mapM_writeText (hrows row hrow) false
  obtain ⟨header, hheader', hs⟩ := bind_eq_ok_iff.1 hs
  obtain ⟨body, hbody, hs⟩ := bind_eq_ok_iff.1 hs
  obtain ⟨tables, -, hs⟩ := bind_eq_ok_iff.1 hs
  obtain ⟨widths, -, hs⟩ := bind_eq_ok_iff.1 hs
  cases hs
  obtain rfl := Except.ok.inj ((mapM_writeText hheader true).symm.trans hheader')
  obtain rfl := Except.ok.inj (hbody'.symm.trans (mapM_of_writeTexts hbody))
  rw [grid, List.map_cons, List.map_cons, List.map_map, List.map_map]
  congr 1
  · exact List.map_congr_left fun s hs => Cell.shown_ofText (hheader s hs)
  · apply List.map_congr_left
    intro row hrow
    rw [Function.comp_apply, List.map_map]
    exact List.map_congr_left fun s hs => Cell.shown_ofText (hrows row hrow s hs)

end Sheet

namespace Workbook

/-- The sheet that is replaced by a table is written last. -/
theorem exists_of_replaceSheet {w w' : Workbook} {name : String} {t : TextTable}
    (h : w.replaceSheet name t = .ok w') :
    ∃ title sheet, Title.choose (dropMatching name w.sheets |>.map Sheet.title) name = .ok title ∧
      Sheet.write title (Workbook.mk (dropMatching name w.sheets)).tableNames t = .ok sheet ∧
      w'.sheets = (dropMatching name w.sheets).map Sheet.kept ++ [sheet] := by
  obtain ⟨title, htitle, h⟩ := bind_eq_ok_iff.1 h
  obtain ⟨sheet, hsheet, h⟩ := bind_eq_ok_iff.1 h
  cases h
  exact ⟨title, sheet, htitle, hsheet, rfl⟩

end Workbook

end TableQuery
