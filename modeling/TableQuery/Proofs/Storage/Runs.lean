import TableQuery.Proofs.Storage.Steps

/-!
# Runs on a stored workbook

A run queries, reads, writes, exports and installs, in any order. A step that is refused, and a
query whose export ends in a warning, leave the stored workbook exactly as it was. A step that
writes a sheet leaves every sheet of another name alone, takes away at most one sheet and adds one
at the end. Hence the sheets that no step of a run names are there in the end as they were.
-/

namespace TableQuery.Staging

open TableQuery.Text

namespace Step

/-- The sheet that a step has written that was answered. -/
def writes : Step → Answer → Option String
  | query _ r, .result result =>
    if result.rows.isEmpty || !result.warnings.isEmpty then none
    else Export.sheetName? r.exportSheet
  | replaceSheet name _, .done => some name
  | exportRows name rows, .done => if rows.isEmpty then none else some name
  | _, _ => none

def isInstall : Step → Bool
  | install _ => true
  | _ => false

end Step

/-- What a step that was answered did to the files, given the name of the sheet that it has
written. -/
inductive Effect (path : Option String) (files : Files) : Option String → Files → Prop
  | unchanged : Effect path files none files
  | wrote {name : String} {w w' : Workbook} (hopen : WorkbookFile.openFile files path = .ok w)
      (hwrote : Workbook.Wrote name w w') :
      Effect path files (some name) (WorkbookFile.save files path w')

section Effects

variable {disk : Disk} {path : Option String} {files files' : Files} {name : String}
  {t : TextTable}

theorem save_eq_ok {w : Workbook} (h : disk.save files path w = .ok files') :
    files' = WorkbookFile.save files path w := by
  rw [Disk.save] at h
  split at h
  · cases h
  · cases h
    rfl

theorem effect_of_written (h : written disk files path name t = .ok files') :
    Effect path files (some name) files' := by
  obtain ⟨w', hw', hsave⟩ := bind_eq_ok_iff.1 h
  obtain ⟨w, hopen, hreplace⟩ := bind_eq_ok_iff.1 hw'
  rw [save_eq_ok hsave]
  exact .wrote hopen (Workbook.wrote_of_replaceSheet hreplace)

theorem effect_of_exported {rows : List Row} (h : exported disk files path name rows = .ok files') :
    Effect path files (if rows.isEmpty then none else some name) files' := by
  cases rows with
  | nil =>
      cases h
      exact .unchanged
  | cons row rows =>
      obtain ⟨t, ht⟩ : ∃ t, Export.table? (row :: rows) = some t := ⟨_, rfl⟩
      rw [exported, ht] at h
      dsimp only at h
      cases hwritten : written disk files path name t with
      | ok after =>
          rw [hwritten] at h
          cases h
          exact effect_of_written hwritten
      | error e =>
          rw [hwritten] at h
          cases h

theorem effect_noted (r : Request) (rows : List Row) :
    Effect path files
      (if rows.isEmpty || !(noted disk files path r rows).1.isEmpty then none
        else Export.sheetName? r.exportSheet)
      (noted disk files path r rows).2 := by
  by_cases hany : ∃ name t, WorkbookFile.Exports r rows name t
  · obtain ⟨name, t, hexports⟩ := hany
    have hrows : rows.isEmpty = false := by simpa using hexports.rows_ne_nil
    rw [(WorkbookFile.exports_iff.1 hexports).1, hrows]
    cases hwritten : written disk files path name t with
    | ok after =>
        rw [noted_of_exports hexports, hwritten]
        exact effect_of_written hwritten
    | error e =>
        rw [noted_of_exports hexports, hwritten]
        exact .unchanged
  · have hnone : ∀ name t, ¬WorkbookFile.Exports r rows name t := fun name t h => hany ⟨name, t, h⟩
    rw [noted_of_not_exports hnone]
    cases rows with
    | nil => exact .unchanged
    | cons row rows =>
        cases hname : Export.sheetName? r.exportSheet with
        | none => exact .unchanged
        | some name => exact absurd (WorkbookFile.exports_iff.2 ⟨hname, rfl⟩) (hnone name _)

theorem Step.effect_of_outcome {step : Step} {answer : Answer} (hstep : step.isInstall = false)
    (h : step.outcome disk path files = .ok (answer, files')) :
    Effect path files (step.writes answer) files' := by
  cases step with
  | query deadline r =>
      obtain ⟨⟨result, after⟩, hquery, heq⟩ := map_eq_ok_iff.1 h
      obtain ⟨w, -, hrows⟩ := bind_eq_ok_iff.1 hquery
      obtain ⟨rows, -, hresult⟩ := map_eq_ok_iff.1 hrows
      cases heq
      cases hresult
      exact effect_noted r rows
  | readSheet name =>
      obtain ⟨t, -, heq⟩ := map_eq_ok_iff.1 h
      cases heq
      exact .unchanged
  | replaceSheet name t =>
      obtain ⟨after, hwritten, heq⟩ := map_eq_ok_iff.1 h
      cases heq
      exact effect_of_written hwritten
  | exportRows name rows =>
      obtain ⟨after, hexported, heq⟩ := map_eq_ok_iff.1 h
      cases heq
      exact effect_of_exported hexported
  | install source => cases hstep

theorem openFile_save {w w' : Workbook} (h : WorkbookFile.openFile files path = .ok w) :
    WorkbookFile.openFile (WorkbookFile.save files path w') path = .ok w' := by
  rw [WorkbookFile.openFile] at h ⊢
  cases path with
  | none => cases h
  | some s =>
      rw [WorkbookFile.configured] at h ⊢
      by_cases hs : s = ""
      · rw [if_pos hs] at h
        cases h
      · rw [if_neg hs] at h ⊢
        have hfind : (WorkbookFile.save files (some s) w').find? (Path.ofText s) =
            some (.workbook w') := Files.find?_put_self files _ _
        have hhas : (WorkbookFile.save files (some s) w').has (Path.ofText s) = true := by
          simp [WorkbookFile.save, Files.put, Files.has, Path.isWithin]
        dsimp only at h ⊢
        rw [WorkbookFile.openAt] at h ⊢
        split_ifs at h ⊢
        all_goals simp_all

theorem Effect.elsewhere {wrote? : Option String} (h : Effect path files wrote? files') (p : Path)
    (hp : p ≠ Path.ofText (path.getD "")) : files'.find? p = files.find? p := by
  cases h with
  | unchanged => rfl
  | wrote => exact Files.find?_put_of_ne files hp _

theorem Effect.eq_of_none (h : Effect path files none files') : files' = files := by
  cases h
  rfl

theorem Effect.exists_wrote (h : Effect path files (some name) files') :
    ∃ w w', WorkbookFile.openFile files path = .ok w ∧ WorkbookFile.openFile files' path = .ok w' ∧
      Workbook.Wrote name w w' := by
  cases h with
  | wrote hopen hwrote => exact ⟨_, _, hopen, openFile_save hopen, hwrote⟩

/-- A workbook that was stored before is still stored, with all sheets but those written. -/
theorem Effect.keeps {wrote? : Option String} {w : Workbook} (h : Effect path files wrote? files')
    (hw : WorkbookFile.openFile files path = .ok w) :
    ∃ w', WorkbookFile.openFile files' path = .ok w' ∧ Workbook.Keeps wrote?.toList w w' := by
  cases h with
  | unchanged => exact ⟨w, hw, .refl [] w⟩
  | wrote hopen hwrote =>
      cases hopen.symm.trans hw
      exact ⟨_, openFile_save hopen, hwrote.keeps⟩

end Effects

/-- A step of a run with the files before it, its answer and the files behind it. -/
structure Event where
  before : Files
  step : Step
  answer : Except Failure Answer
  after : Files

namespace Event

/-- The sheet that was written, if any. -/
def wrote? (e : Event) : Option String :=
  match e.answer with
  | .ok answer => e.step.writes answer
  | .error _ => none

/-- A workbook was installed. -/
def installs (e : Event) : Bool :=
  e.step.isInstall && e.answer.toBool

/-- What every event of a run keeps to. -/
structure Sound (path : Option String) (e : Event) : Prop where
  refused : ∀ f, e.answer = .error f → e.after = e.before
  warned : ∀ result, e.answer = .ok (.result result) → result.warnings ≠ [] → e.after = e.before
  quiet : e.wrote? = none → e.installs = false → e.after = e.before
  wrote : ∀ name, e.wrote? = some name → ∃ w w',
    WorkbookFile.openFile e.before path = .ok w ∧ WorkbookFile.openFile e.after path = .ok w' ∧
      Workbook.Wrote name w w'
  elsewhere : ∀ p, p ≠ Path.ofText (path.getD "") → e.after.find? p = e.before.find? p

theorem wrote?_of_refused {e : Event} {f : Failure} (h : e.answer = .error f) :
    e.wrote? = none := by
  rw [wrote?, h]

theorem wrote?_of_warned {e : Event} {result : ResultSet} (h : e.answer = .ok (.result result))
    (hwarnings : result.warnings ≠ []) : e.wrote? = none := by
  rw [wrote?, h]
  dsimp only
  cases e.step <;> simp [Step.writes, hwarnings]

theorem Sound.of_effect {path : Option String} {e : Event}
    (h : Effect path e.before e.wrote? e.after) : e.Sound path := by
  have hquiet : e.wrote? = none → e.after = e.before := by
    intro hnone
    rw [hnone] at h
    exact h.eq_of_none
  constructor
  case refused =>
    intro f hf
    exact hquiet (wrote?_of_refused hf)
  case warned =>
    intro result hresult hwarnings
    exact hquiet (wrote?_of_warned hresult hwarnings)
  case quiet =>
    intro hnone _
    exact hquiet hnone
  case wrote =>
    intro name hname
    rw [hname] at h
    exact h.exists_wrote
  case elsewhere => exact h.elsewhere

end Event

/-- The event of a step on given files. -/
def Step.event (disk : Disk) (temp : TempNames) (path : Option String) (files : Files)
    (step : Step) : Event where
  before := files
  step := step
  answer := (step.run disk temp path files).1
  after := (step.run disk temp path files).2

/-- The events of a run. -/
def trace (disk : Disk) (temp : TempNames) (path : Option String) :
    Files → List Step → List Event
  | _, [] => []
  | files, step :: steps =>
    step.event disk temp path files ::
      trace disk temp path (step.event disk temp path files).after steps

/-- The files behind a run. -/
def final (disk : Disk) (temp : TempNames) (path : Option String) (files : Files)
    (steps : List Step) : Files :=
  steps.foldl (fun files step => (step.event disk temp path files).after) files

section Run

variable (disk : Disk) (temp : TempNames) (path : Option String)

theorem Step.effect_of_event {files : Files} {step : Step}
    (h : (step.event disk temp path files).installs = false) :
    Effect path files (step.event disk temp path files).wrote?
      (step.event disk temp path files).after := by
  rw [Event.installs] at h
  rw [Event.wrote?]
  dsimp only [event] at h ⊢
  rw [step.run_eq disk temp path files] at h ⊢
  cases houtcome : step.outcome disk path files with
  | error e => exact .unchanged
  | ok result =>
      rw [houtcome] at h
      have hstep : step.isInstall = false := by simpa [Except.toBool, settle] using h
      exact Step.effect_of_outcome hstep houtcome

/-- An installation that succeeds writes the workbook and nothing else. -/
theorem Step.sound_of_installed {files files' : Files} {source : Content} {p : Path}
    (h : installed disk files path source = .ok (p, files')) :
    ((Step.install source).event disk temp path files).Sound path := by
  have hevent : (Step.install source).event disk temp path files =
      ⟨files, .install source, .ok (.installed p), files'⟩ := by
    rw [event, run_eq, outcome, h]
    rfl
  have hfiles : ∃ w, files' = WorkbookFile.save files path w := by
    obtain ⟨s, -, hsource⟩ := bind_eq_ok_iff.1 h
    cases source with
    | workbook w =>
        obtain ⟨after, hsave, hafter⟩ := map_eq_ok_iff.1 hsource
        cases hafter
        exact ⟨w, save_eq_ok hsave⟩
    | database d => cases hsource
    | text s => cases hsource
  obtain ⟨w, rfl⟩ := hfiles
  rw [hevent]
  constructor
  case refused =>
    intro f hf
    cases hf
  case warned =>
    intro result hresult
    cases hresult
  case quiet =>
    intro _ hinstalls
    cases hinstalls
  case wrote =>
    intro name hname
    cases hname
  case elsewhere => exact fun q hq => Files.find?_put_of_ne files hq _

theorem Step.event_sound (files : Files) (step : Step) :
    (step.event disk temp path files).Sound path := by
  cases hinstalls : (step.event disk temp path files).installs with
  | false => exact .of_effect (effect_of_event disk temp path hinstalls)
  | true =>
      rw [Event.installs, Bool.and_eq_true] at hinstalls
      obtain ⟨hstep, hanswer⟩ := hinstalls
      cases step with
      | install source =>
          cases hinstalled : installed disk files path source with
          | error e =>
              rw [event, run_eq, outcome, hinstalled] at hanswer
              cases hanswer
          | ok result => exact sound_of_installed disk temp path hinstalled
      | _ => cases hstep

theorem trace_keeps (files : Files) (steps : List Step) {w : Workbook}
    (hw : WorkbookFile.openFile files path = .ok w)
    (h : ∀ e ∈ trace disk temp path files steps, e.installs = false) :
    ∃ w', WorkbookFile.openFile (final disk temp path files steps) path = .ok w' ∧
      Workbook.Keeps ((trace disk temp path files steps).filterMap Event.wrote?) w w' := by
  induction steps generalizing files w with
  | nil => exact ⟨w, hw, .refl [] w⟩
  | cons step steps ih =>
      rw [trace, List.forall_mem_cons] at h
      obtain ⟨w', hw', hkeeps⟩ := (step.effect_of_event disk temp path h.1).keeps hw
      obtain ⟨w'', hw'', hrest⟩ := ih _ hw' h.2
      refine ⟨w'', hw'', ?_⟩
      have hnames : (trace disk temp path files (step :: steps)).filterMap Event.wrote? =
          (step.event disk temp path files).wrote?.toList ++
            (trace disk temp path (step.event disk temp path files).after steps).filterMap
              Event.wrote? := by
        rw [trace, List.filterMap_cons]
        cases (step.event disk temp path files).wrote? <;> rfl
      rw [hnames]
      exact hkeeps.trans hrest

theorem trace_direct (files : Files) (steps : List Step) :
    ∀ e ∈ trace .roomy temp path files steps,
      (e.answer, e.after) = Step.settle e.before (e.step.direct path e.before) := by
  induction steps generalizing files with
  | nil => exact fun e he => absurd he List.not_mem_nil
  | cons step steps ih =>
      rw [trace, List.forall_mem_cons]
      refine ⟨?_, ih _⟩
      rw [← Step.outcome_roomy]
      exact step.run_eq .roomy temp path files

theorem trace_forall_sound (files : Files) (steps : List Step) :
    ∀ e ∈ trace disk temp path files steps, e.Sound path := by
  induction steps generalizing files with
  | nil => exact fun e he => absurd he List.not_mem_nil
  | cons step steps ih =>
      rw [trace, List.forall_mem_cons]
      exact ⟨step.event_sound disk temp path files, ih _⟩

/-- Every event of a run is sound, whatever the disk takes. A run that installs no workbook keeps
all sheets that none of its events has written. On a disk that takes every workbook each step is
the operation on the workbook file. -/
theorem trace_sound (files : Files) (steps : List Step) :
    (∀ e ∈ trace disk temp path files steps, e.Sound path) ∧
      (∀ w, WorkbookFile.openFile files path = .ok w →
        (∀ e ∈ trace disk temp path files steps, e.installs = false) →
        ∃ w', WorkbookFile.openFile (final disk temp path files steps) path = .ok w' ∧
          Workbook.Keeps ((trace disk temp path files steps).filterMap Event.wrote?) w w') ∧
      ∀ e ∈ trace .roomy temp path files steps,
        (e.answer, e.after) = Step.settle e.before (e.step.direct path e.before) := by
  refine ⟨trace_forall_sound disk temp path files steps, ?_, trace_direct temp path files steps⟩
  intro w hw hinstalls
  exact trace_keeps disk temp path files steps hw hinstalls

end Run

end TableQuery.Staging
