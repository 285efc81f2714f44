import TableQuery.Proofs.Storage.Steps
import TableQuery.Web.Server

/-!
# Warnings in the header

A query whose export fails has its rows all the same, and a warning for the header of the response.
A header holds the first 256 characters only. A warning that has another one, in the name of the
sheet or in the reason, cannot be sent, and then neither can the rows.
-/

namespace TableQuery.Web

open TableQuery.Staging (Disk TempNames)

open TableQuery.Text (upper)

/-- A header can hold the text. -/
def IsLatin (s : String) : Prop :=
  ∀ c ∈ s.toList, c.toNat < 256

theorem all_iff_isLatin {s : String} : (s.toList.all fun c => c.toNat < 256) ↔ IsLatin s := by
  simp [IsLatin]

instance (s : String) : Decidable (IsLatin s) :=
  decidable_of_iff _ all_iff_isLatin

theorem isLatin_append {s t : String} : IsLatin (s ++ t) ↔ IsLatin s ∧ IsLatin t := by
  rw [IsLatin, String.toList_append, List.forall_mem_append]
  rfl

theorem isLatin_exportFailed {name reason : String} :
    IsLatin (QueryError.exportFailed name reason).message ↔ IsLatin name ∧ IsLatin reason := by
  have hmessage : (QueryError.exportFailed name reason).message =
      "Export to sheet '" ++ name ++ "' failed: " ++ reason := rfl
  have hbefore : IsLatin "Export to sheet '" := by decide
  have hafter : IsLatin "' failed: " := by decide
  rw [hmessage, isLatin_append, isLatin_append, isLatin_append, and_iff_right hbefore,
    and_iff_left hafter]

theorem headerValue_of_isLatin {s : String} (h : IsLatin s) : headerValue s = .ok s := by
  rw [headerValue, if_pos (all_iff_isLatin.2 h)]

theorem headerValue_of_not_isLatin {s : String} (h : ¬IsLatin s) :
    headerValue s = .error .headerUnencodable := by
  rw [headerValue, if_neg (mt all_iff_isLatin.1 h)]

/-- The response with the records of some rows and a warning. -/
def warned (rows : List Row) (warning : String) : Response :=
  { Response.ok (.records (rows.map Row.record)) with warning := some warning }

/-- The rows are sent when the header can hold what the warning says of the sheet and of the
reason. -/
theorem ofResult_exportFailed (rows : List Row) (name reason : String) :
    ofResult ⟨rows, [(QueryError.exportFailed name reason).message]⟩ =
      if IsLatin name ∧ IsLatin reason then
        .ok (warned rows (QueryError.exportFailed name reason).message)
      else .error .headerUnencodable := by
  have hjoined : String.intercalate "; " [(QueryError.exportFailed name reason).message] =
      (QueryError.exportFailed name reason).message := rfl
  rw [ofResult, warningHeader]
  simp only [List.isEmpty_cons, hjoined]
  by_cases h : IsLatin name ∧ IsLatin reason
  · rw [if_pos h, headerValue_of_isLatin (isLatin_exportFailed.2 h)]
    rfl
  · rw [if_neg h, headerValue_of_not_isLatin (mt isLatin_exportFailed.1 h)]
    rfl

/-- The answer to a query, when the workbook is written in stages on a disk that may refuse it. -/
def answerQueryOn (disk : Disk) (temp : TempNames) (config : Config) (files : Files)
    (payload : Payload) : Except Failure Response × Files :=
  match requestOf payload with
  | .error fs => (.ok (.invalid fs), files)
  | .ok r =>
    match Engine.ofName (some r.engine) with
    | .ok .tabular =>
      match Staging.exec (Staging.query disk temp config.deadline config.workbookPath r)
          ⟨files, ⟨[]⟩⟩ with
      | (.ok result, d) => (ofResult result, d.files)
      | (.error f, d) => (ofFailure f, d.files)
    | _ => answerQuery config files payload

section Queries

variable {config : Config} {files : Files} {payload : Payload} {r : Request}

theorem answerQueryOn_of_tabular (disk : Disk) (temp : TempNames)
    (hrequest : requestOf payload = .ok r)
    (hengine : Engine.ofName (some r.engine) = .ok .tabular) :
    answerQueryOn disk temp config files payload =
      match Staging.queried disk config.deadline files config.workbookPath r with
      | .ok (result, files') => (ofResult result, files')
      | .error f => (ofFailure f, files) := by
  have hcommits := Staging.commits_query disk temp config.workbookPath ⟨files, ⟨[]⟩⟩
    config.deadline r
  rw [answerQueryOn, hrequest]
  simp only [hengine]
  dsimp only at hcommits
  generalize Staging.queried disk config.deadline files config.workbookPath r = outcome at hcommits ⊢
  cases hcommits with
  | ok h => rw [h]
  | error h => rw [h]

/-- On a disk that takes every workbook, the answer in stages is the answer of the service. -/
theorem answerQueryOn_roomy (temp : TempNames) (config : Config) (files : Files)
    (payload : Payload) :
    answerQueryOn .roomy temp config files payload = answerQuery config files payload := by
  cases hrequest : requestOf payload with
  | error fs => rw [answerQueryOn, answerQuery, hrequest]
  | ok r =>
      cases hengine : Engine.ofName (some r.engine) with
      | error e =>
        rw [answerQueryOn, hrequest]
        simp only [hengine]
      | ok engine =>
          cases engine with
          | relational =>
            rw [answerQueryOn, hrequest]
            simp only [hengine]
          | tabular =>
              have hrun : (serviceOf config).run config.timeout files r =
                  WorkbookFile.query config.deadline files config.workbookPath r := by
                simp only [serviceOf, Service.run, hengine, Config.deadline]
              rw [answerQueryOn_of_tabular _ _ hrequest hengine, Staging.queried_roomy, answerQuery,
                hrequest]
              cases houtcome : WorkbookFile.query config.deadline files config.workbookPath r with
              | error f => simp only [hrun, houtcome]
              | ok outcome => simp only [hrun, houtcome]

theorem answer_query (config : Config) (stamp : String) (files : Files) (payload : Payload) :
    answer config stamp files ⟨"POST", "/query", payload⟩ = answerQuery config files payload := by
  have hroute : route? "/query" = some ("POST", .query) := by decide +kernel
  have hmethod : upper "POST" = "POST" := by decide +kernel
  simp only [answer, hroute, hmethod, ne_eq, not_true_eq_false, if_false]

theorem answerQueryOn_of_failed {disk : Disk} (temp : TempNames) {w : Workbook} {rows : List Row}
    {name : String} {t : TextTable} {e : Failure} (hrequest : requestOf payload = .ok r)
    (hengine : Engine.ofName (some r.engine) = .ok .tabular)
    (hopen : WorkbookFile.openFile files config.workbookPath = .ok w)
    (hrows : Tabular.rows config.deadline w.book r = .ok rows)
    (hexports : WorkbookFile.Exports r rows name t)
    (hfailed : Staging.written disk files config.workbookPath name t = .error e) :
    answerQueryOn disk temp config files payload =
      (ofResult ⟨rows, [(Export.failed name e).message]⟩, files) := by
  rw [answerQueryOn_of_tabular disk temp hrequest hengine,
    Staging.queried_of_rows hopen hrows disk, Staging.noted_of_exports hexports, hfailed]

/-- What a query answers when its rows were exported to a sheet and that failed for a reason. -/
structure Warns (disk : Disk) (temp : TempNames) (config : Config) (stamp : String) (files : Files)
    (payload : Payload) (rows : List Row) (name reason : String) : Prop where
  sent : IsLatin name → IsLatin reason → answerQueryOn disk temp config files payload =
    (.ok (warned rows (QueryError.exportFailed name reason).message), files)
  lost : ¬(IsLatin name ∧ IsLatin reason) →
    answerQueryOn disk temp config files payload = (.error .headerUnencodable, files)
  service : disk = .roomy → answer config stamp files ⟨"POST", "/query", payload⟩ =
    answerQueryOn disk temp config files payload
  worded : ∀ other, ofResult ⟨rows, [(QueryError.exportFailed name other).message]⟩ =
    if IsLatin name ∧ IsLatin other then
      .ok (warned rows (QueryError.exportFailed name other).message)
    else .error .headerUnencodable

/-- A query whose export fails answers with its rows and a warning, unless the header cannot hold
the warning. -/
theorem warns_of_failed {disk : Disk} (temp : TempNames) (stamp : String) {w : Workbook}
    {rows : List Row} {name : String} {t : TextTable} {e : Failure}
    (hrequest : requestOf payload = .ok r)
    (hengine : Engine.ofName (some r.engine) = .ok .tabular)
    (hopen : WorkbookFile.openFile files config.workbookPath = .ok w)
    (hrows : Tabular.rows config.deadline w.book r = .ok rows)
    (hexports : WorkbookFile.Exports r rows name t)
    (hfailed : Staging.written disk files config.workbookPath name t = .error e) :
    Warns disk temp config stamp files payload rows name (e.message?.getD e.name) := by
  have hanswer := answerQueryOn_of_failed temp hrequest hengine hopen hrows hexports
    hfailed
  rw [Export.failed, ofResult_exportFailed] at hanswer
  constructor
  case sent =>
    intro hname hreason
    rw [hanswer, if_pos ⟨hname, hreason⟩]
  case lost =>
    intro h
    rw [hanswer, if_neg h]
  case service =>
    rintro rfl
    rw [answer_query, answerQueryOn_roomy]
  case worded => exact fun other => ofResult_exportFailed rows name other

end Queries

/-- A workbook of one note. -/
def notes : Workbook :=
  ⟨[{ title := "notes", rows := [[some ⟨.text "a", false⟩], [some ⟨.text "1", false⟩]] }]⟩

def notesFiles : Files :=
  WorkbookFile.save {} (some "book.xlsx") notes

def notesConfig : Config :=
  { databasePath := none, workbookPath := some "book.xlsx", uploadDir := "uploads", timeout := none,
    mode := .safe, maxUploadBytes := 1048576 }

/-- The call for all notes and for their export to a sheet. -/
def notesPayload (name : String) : Payload :=
  .document ("\x7b\"engine\": \"tabular\", \"table\": \"notes\", \"exportSheetName\": \"" ++
    name ++ "\"\x7d")

def notesRequest (name : String) : Request :=
  { engine := "tabular", table := "notes", exportSheet := some name }

theorem openFile_notes : WorkbookFile.openFile notesFiles notesConfig.workbookPath = .ok notes :=
  rfl

theorem rows_notes (name : String) : Tabular.rows notesConfig.deadline notes.book
    (notesRequest name) = .ok [TextTable.rowOf ["a"] ["1"]] := by
  have hplain : (notesRequest name).withoutExport = { engine := "tabular", table := "notes" } := rfl
  have hrows : Tabular.rows notesConfig.deadline notes.book (notesRequest name).withoutExport =
      Tabular.rows notesConfig.deadline notes.book (notesRequest name) := rfl
  rw [← hrows, hplain]
  rfl

theorem written_notes (e : Failure) :
    Staging.written (fun _ => some e) notesFiles notesConfig.workbookPath "Out" ⟨["a"], [["1"]]⟩ =
      .error e := by
  obtain ⟨w, hw⟩ : ∃ w, notes.replaceSheet "Out" ⟨["a"], [["1"]]⟩ = .ok w := ⟨_, rfl⟩
  rw [Staging.written, openFile_notes]
  change (notes.replaceSheet "Out" ⟨["a"], [["1"]]⟩ >>= _) = _
  rw [hw]
  rfl

/-- A name that no sheet can have, and a disk that is full. -/
theorem warns_notes :
    requestOf (notesPayload "a/b") = .ok (notesRequest "a/b") ∧
    answer notesConfig "" notesFiles ⟨"POST", "/query", notesPayload "a/b"⟩ =
      (.ok (warned [TextTable.rowOf ["a"] ["1"]]
        "Export to sheet 'a/b' failed: Invalid character / found in sheet title"), notesFiles) ∧
    answerQueryOn (fun _ => some (.fileMissing "日")) default notesConfig notesFiles
      (notesPayload "Out") = (.error .headerUnencodable, notesFiles) := by
  have hrequest : requestOf (notesPayload "a/b") = .ok (notesRequest "a/b") :=
    toOption_eq_some_iff.1 (by decide +kernel)
  have hrequest' : requestOf (notesPayload "Out") = .ok (notesRequest "Out") :=
    toOption_eq_some_iff.1 (by decide +kernel)
  have hnamed : Warns .roomy default notesConfig "" notesFiles (notesPayload "a/b")
      [TextTable.rowOf ["a"] ["1"]] "a/b" "Invalid character / found in sheet title" :=
    warns_of_failed (t := ⟨["a"], [["1"]]⟩) (e := .titleInvalid '/') default "" hrequest rfl
      openFile_notes (rows_notes _) ⟨rfl, rfl, rfl⟩ rfl
  have hfull := warns_of_failed default "" hrequest' rfl openFile_notes (rows_notes _)
    ⟨rfl, rfl, rfl⟩ (written_notes (.fileMissing "日"))
  refine ⟨hrequest, ?_, hfull.lost (by decide +kernel)⟩
  rw [hnamed.service rfl]
  exact hnamed.sent (by decide +kernel) (by decide +kernel)

/-- The same with a name in another script: the rows are lost with the warning. -/
theorem not_answered_notes :
    requestOf (notesPayload "日/本") = .ok (notesRequest "日/本") ∧
    Engine.ofName (some (notesRequest "日/本").engine) = .ok .tabular ∧
    WorkbookFile.openFile notesFiles notesConfig.workbookPath = .ok notes ∧
    Tabular.rows notesConfig.deadline notes.book (notesRequest "日/本") =
      .ok [TextTable.rowOf ["a"] ["1"]] ∧
    WorkbookFile.Exports (notesRequest "日/本") [TextTable.rowOf ["a"] ["1"]] "日/本"
      ⟨["a"], [["1"]]⟩ ∧
    WorkbookFile.replaceSheet notesFiles notesConfig.workbookPath "日/本" ⟨["a"], [["1"]]⟩ =
      .error (.titleInvalid '/') ∧
    ¬∃ response, (answer notesConfig "" notesFiles
      ⟨"POST", "/query", notesPayload "日/本"⟩).1 = .ok response := by
  have hrequest : requestOf (notesPayload "日/本") = .ok (notesRequest "日/本") :=
    toOption_eq_some_iff.1 (by decide +kernel)
  have hexports : WorkbookFile.Exports (notesRequest "日/本") [TextTable.rowOf ["a"] ["1"]] "日/本"
      ⟨["a"], [["1"]]⟩ := ⟨rfl, rfl, rfl⟩
  have hfailed : WorkbookFile.replaceSheet notesFiles notesConfig.workbookPath "日/本"
      ⟨["a"], [["1"]]⟩ = .error (.titleInvalid '/') := rfl
  refine ⟨hrequest, rfl, openFile_notes, rows_notes _, hexports, hfailed, ?_⟩
  have hanswer := answerQueryOn_of_failed default hrequest rfl openFile_notes
    (rows_notes _) hexports ((Staging.written_roomy _ _ _ _).trans hfailed)
  have hscript : ¬(IsLatin "日/本" ∧ IsLatin "Invalid character / found in sheet title") := by
    decide +kernel
  have hlost : ofResult ⟨[TextTable.rowOf ["a"] ["1"]],
      [(Export.failed "日/本" (.titleInvalid '/')).message]⟩ = .error .headerUnencodable :=
    (ofResult_exportFailed _ _ _).trans (if_neg hscript)
  rintro ⟨response, h⟩
  rw [answer_query, ← answerQueryOn_roomy default, hanswer, hlost] at h
  cases h

end TableQuery.Web
