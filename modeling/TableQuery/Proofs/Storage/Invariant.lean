import TableQuery.Proofs.Storage.Runs

/-!
# Invariants of the stored workbook

What holds of a workbook, of every workbook that is installed, and of a workbook with a sheet
replaced whenever it held before, holds of the stored workbook behind every step of a run.
-/

namespace TableQuery.Staging

open TableQuery.Text

/-- The property holds of the workbook at the path, when there is one. -/
def Stores (path : Option String) (p : Workbook → Prop) (files : Files) : Prop :=
  ∀ w, WorkbookFile.openFile files path = .ok w → p w

/-- The workbook that a step would install has the property. -/
def Step.Brings (p : Workbook → Prop) (step : Step) : Prop :=
  ∀ w, step = .install (.workbook w) → p w

theorem eq_of_openFile_save {files : Files} {path : Option String} {w w' : Workbook}
    (h : WorkbookFile.openFile (WorkbookFile.save files path w) path = .ok w') : w' = w := by
  rw [WorkbookFile.openFile] at h
  cases path with
  | none => cases h
  | some s =>
      have hfind : (WorkbookFile.save files (some s) w).find? (Path.ofText s) =
          some (.workbook w) := Files.find?_put_self files _ _
      rw [WorkbookFile.configured] at h
      split_ifs at h
      dsimp only at h
      rw [WorkbookFile.openAt, hfind] at h
      dsimp only at h
      split_ifs at h
      exact (Except.ok.inj h).symm

section Kept

variable {p : Workbook → Prop} {disk : Disk} {path : Option String} {files files' : Files}
variable (hkept : ∀ w w' name t, p w → w.replaceSheet name t = .ok w' → p w')
include hkept

theorem stores_of_written {name : String} {t : TextTable} (h : Stores path p files)
    (hwritten : written disk files path name t = .ok files') : Stores path p files' := by
  obtain ⟨w', hw', hsave⟩ := bind_eq_ok_iff.1 hwritten
  obtain ⟨w, hopen, hreplace⟩ := bind_eq_ok_iff.1 hw'
  rw [save_eq_ok hsave]
  intro stored hstored
  rw [eq_of_openFile_save hstored]
  exact hkept w w' name t (h w hopen) hreplace

theorem stores_of_exported {name : String} {rows : List Row} (h : Stores path p files)
    (hexported : exported disk files path name rows = .ok files') : Stores path p files' := by
  rw [exported] at hexported
  split at hexported
  · cases hexported
    exact h
  · split at hexported
    · next after hwritten =>
        cases hexported
        exact stores_of_written hkept h hwritten
    · cases hexported

theorem stores_noted (h : Stores path p files) (r : Request) (rows : List Row) :
    Stores path p (noted disk files path r rows).2 := by
  rw [noted]
  split
  · split
    · next after hwritten => exact stores_of_written hkept h hwritten
    · exact h
  · exact h

theorem stores_of_outcome {step : Step} {answer : Answer} (h : Stores path p files)
    (hstep : step.Brings p) (houtcome : step.outcome disk path files = .ok (answer, files')) :
    Stores path p files' := by
  cases step with
  | query deadline r =>
      obtain ⟨⟨result, after⟩, hquery, heq⟩ := map_eq_ok_iff.1 houtcome
      obtain ⟨w, -, hrows⟩ := bind_eq_ok_iff.1 hquery
      obtain ⟨rows, -, hresult⟩ := map_eq_ok_iff.1 hrows
      cases heq
      cases hresult
      exact stores_noted hkept h r rows
  | readSheet name =>
      obtain ⟨t, -, heq⟩ := map_eq_ok_iff.1 houtcome
      cases heq
      exact h
  | replaceSheet name t =>
      obtain ⟨after, hwritten, heq⟩ := map_eq_ok_iff.1 houtcome
      cases heq
      exact stores_of_written hkept h hwritten
  | exportRows name rows =>
      obtain ⟨after, hexported, heq⟩ := map_eq_ok_iff.1 houtcome
      cases heq
      exact stores_of_exported hkept h hexported
  | install source =>
      obtain ⟨⟨place, after⟩, hinstalled, heq⟩ := map_eq_ok_iff.1 houtcome
      cases heq
      obtain ⟨s, -, hsource⟩ := bind_eq_ok_iff.1 hinstalled
      cases source with
      | workbook w =>
          obtain ⟨saved, hsave, hsaved⟩ := map_eq_ok_iff.1 hsource
          cases hsaved
          rw [save_eq_ok hsave]
          intro stored hstored
          rw [eq_of_openFile_save hstored]
          exact hstep w rfl
      | database d => cases hsource
      | text s => cases hsource

variable (disk) (temp : TempNames)

theorem stores_event {step : Step} (h : Stores path p files) (hstep : step.Brings p) :
    Stores path p (step.event disk temp path files).after := by
  rw [Step.event, Step.run_eq]
  cases houtcome : step.outcome disk path files with
  | error e => exact h
  | ok result => exact stores_of_outcome hkept h hstep houtcome

/-- A run keeps what each of its steps keeps. -/
theorem stores_final {steps : List Step} (h : Stores path p files)
    (hsteps : ∀ step ∈ steps, step.Brings p) :
    Stores path p (final disk temp path files steps) := by
  induction steps generalizing files with
  | nil => exact h
  | cons step steps ih =>
      rw [List.forall_mem_cons] at hsteps
      exact ih (stores_event disk hkept temp h hsteps.1) hsteps.2

end Kept

end TableQuery.Staging
