import TableQuery.Proofs.Storage.Shelf
import TableQuery.Web.Server

/-!
# Uploads

An upload is written to a file as its chunks arrive, and is refused by its size only after that. So
what was written has to be taken away again. It is, unless no workbook is configured: then the
upload is refused and its file stays.
-/

namespace TableQuery.Web

open TableQuery.Text (lower upper)

/-- The bytes that are sent: those of the chunks up to the first empty one. -/
def sent (chunks : List Bytes) : Bytes :=
  (chunks.takeWhile fun chunk => !chunk.isEmpty).flatten

/-- Appends chunks to a file until one is empty or the size passes a cap, and tells the size. -/
def receiveChunks (cap : Int) (p : Path) : Nat → List Bytes → Shelf → Nat × Shelf
  | size, [], shelf => (size, shelf)
  | size, chunk :: chunks, shelf =>
    if chunk.isEmpty then (size, shelf)
    else
      let size' := size + chunk.length
      if cap < size' then (size', shelf)
      else receiveChunks cap p size' chunks (shelf.put p ((shelf p).getD [] ++ chunk))

section Chunks

variable {cap : Int} {p : Path} {size : Nat} {chunks : List Bytes} {shelf : Shelf} {old : Bytes}

theorem sent_cons_of_isEmpty {chunk : Bytes} (h : chunk.isEmpty = true) (chunks : List Bytes) :
    sent (chunk :: chunks) = [] := by
  simp [sent, h]

theorem sent_cons {chunk : Bytes} (h : ¬chunk.isEmpty = true) (chunks : List Bytes) :
    sent (chunk :: chunks) = chunk ++ sent chunks := by
  simp [sent, h]

/-- Up to the cap all that is sent is written. -/
theorem receiveChunks_of_le (hold : shelf p = some old)
    (h : ((size + (sent chunks).length : Nat) : Int) ≤ cap) :
    receiveChunks cap p size chunks shelf =
      (size + (sent chunks).length, shelf.put p (old ++ sent chunks)) := by
  induction chunks generalizing size shelf old with
  | nil =>
      rw [receiveChunks, sent, List.takeWhile_nil, List.flatten_nil, List.append_nil,
        Shelf.put_of_eq hold]
      rfl
  | cons chunk chunks ih =>
      rw [receiveChunks]
      by_cases hempty : chunk.isEmpty = true
      · rw [if_pos hempty, sent_cons_of_isEmpty hempty, List.append_nil, Shelf.put_of_eq hold]
        rfl
      · rw [sent_cons hempty, List.length_append, ← Nat.add_assoc] at h
        have hcap : ¬cap < ((size + chunk.length : Nat) : Int) := by omega
        rw [if_neg hempty, hold, Option.getD_some]
        dsimp only
        rw [if_neg hcap, ih Shelf.put_self h, Shelf.put_put, sent_cons hempty, List.length_append,
          Nat.add_assoc, List.append_assoc]

/-- Beyond the cap it is noticed, and nothing but the file has changed. -/
theorem receiveChunks_of_lt (hold : shelf p = some old)
    (h : cap < ((size + (sent chunks).length : Nat) : Int)) :
    ∃ (n : Nat) (b : Bytes), receiveChunks cap p size chunks shelf = (n, shelf.put p b) ∧
      cap < (n : Int) := by
  induction chunks generalizing size shelf old with
  | nil =>
      exact ⟨size, old, by rw [receiveChunks, Shelf.put_of_eq hold], by simpa [sent] using h⟩
  | cons chunk chunks ih =>
      rw [receiveChunks]
      by_cases hempty : chunk.isEmpty = true
      · rw [sent_cons_of_isEmpty hempty, List.length_nil, Nat.add_zero] at h
        exact ⟨size, old, by rw [if_pos hempty, Shelf.put_of_eq hold], h⟩
      · rw [sent_cons hempty, List.length_append, ← Nat.add_assoc] at h
        rw [if_neg hempty]
        dsimp only
        split
        · next hcap => exact ⟨_, old, by rw [Shelf.put_of_eq hold], hcap⟩
        · obtain ⟨n, b, hrest, hn⟩ := ih Shelf.put_self h
          exact ⟨n, b, by rw [hrest, Shelf.put_put], hn⟩

end Chunks

/-- Receives an upload at a time, chunk by chunk. -/
def upload (m : Machine) (config : Config) (stamp name : String) (chunks : List Bytes)
    (shelf : Shelf) : Except Failure Response × Shelf :=
  if name = "" then
    (.ok (uploadFault (some ⟨name, m.content (sent chunks), (sent chunks).length⟩)), shelf)
  else if !suffixAllowed name then (.ok uploadMisnamed, shelf)
  else
    let kept := keptPath config stamp name
    let (size, stored) := receiveChunks config.maxUploadBytes kept 0 chunks (shelf.put kept [])
    if size = 0 ∨ config.maxUploadBytes < size then
      (.ok (uploadMissized config), stored.remove kept)
    else
      match m.install config.workbookPath kept stored with
      | (.ok active, files) => (.ok (uploadAccepted name kept active), files)
      | (.error (.query e), files) => (ofFailure (.query e), files)
      | (.error f, files) => (.ok (uploadUnreadable f), files.remove kept)

/-- What becomes of an upload whose name and size are allowed. -/
def activated (m : Machine) (config : Config) (stamp name : String) (b : Bytes) (shelf : Shelf) :
    Except Failure Response × Shelf :=
  let kept := keptPath config stamp name
  match m.installed config.workbookPath (shelf.put kept b) b with
  | .ok active => (.ok (uploadAccepted name kept active), (shelf.put kept b).put active b)
  | .error (.query e) => (ofFailure (.query e), shelf.put kept b)
  | .error f => (.ok (uploadUnreadable f), shelf.remove kept)

theorem sizeAllowed_iff {config : Config} {size : Nat} :
    sizeAllowed config size = true ↔ size ≠ 0 ∧ (size : Int) ≤ config.maxUploadBytes := by
  simp [sizeAllowed]

/-- The chunks do not matter, but for the bytes that are sent. -/
theorem upload_eq (m : Machine) (config : Config) (stamp : String) {name : String}
    (hname : name ≠ "") (hsuffix : suffixAllowed name = true) (chunks : List Bytes)
    (shelf : Shelf) :
    upload m config stamp name chunks shelf =
      if sizeAllowed config (sent chunks).length then
        activated m config stamp name (sent chunks) shelf
      else (.ok (uploadMissized config), shelf.remove (keptPath config stamp name)) := by
  rw [upload, if_neg hname, hsuffix]
  simp only [Bool.not_true, Bool.false_eq_true, if_false]
  have hopened : shelf.put (keptPath config stamp name) [] (keptPath config stamp name) = some [] :=
    Shelf.put_self
  by_cases hcap : ((0 + (sent chunks).length : Nat) : Int) ≤ config.maxUploadBytes
  · rw [receiveChunks_of_le hopened hcap]
    rw [Nat.zero_add] at hcap
    simp only [List.nil_append, Nat.zero_add, Shelf.put_put, Shelf.remove_put]
    by_cases hzero : (sent chunks).length = 0
    · rw [if_pos (.inl hzero), if_neg fun h => (sizeAllowed_iff.1 h).1 hzero]
    · have hrefused : ¬((sent chunks).length = 0 ∨
          config.maxUploadBytes < ((sent chunks).length : Int)) :=
        not_or.2 ⟨hzero, Int.not_lt.2 hcap⟩
      rw [if_neg hrefused, if_pos (sizeAllowed_iff.2 ⟨hzero, hcap⟩), activated,
        Machine.install_of_present Shelf.put_self]
      cases m.installed config.workbookPath
          (shelf.put (keptPath config stamp name) (sent chunks)) (sent chunks) with
      | ok active => rfl
      | error f =>
          cases f with
          | query e => rfl
          | _ => simp only [Shelf.remove_put]
  · obtain ⟨n, b, hreceived, hn⟩ := receiveChunks_of_lt hopened (Int.not_le.1 hcap)
    rw [Nat.zero_add] at hcap
    rw [hreceived]
    dsimp only
    rw [if_pos (.inr hn), if_neg fun h => hcap (sizeAllowed_iff.1 h).2, Shelf.put_put,
      Shelf.remove_put]

/-- The files are those of the shelf, each read as a file. -/
def Shows (m : Machine) (files : Files) (shelf : Shelf) : Prop :=
  ∀ p, files.find? p = (shelf p).map m.content

namespace Shows

variable {m : Machine} {files : Files} {shelf : Shelf}

theorem put (h : Shows m files shelf) (p : Path) (b : Bytes) :
    Shows m (files.put p (m.content b)) (shelf.put p b) := by
  intro q
  by_cases hq : q = p
  · rw [hq, Files.find?_put_self, Shelf.put_self, Option.map_some]
  · rw [Files.find?_put_of_ne files hq, Shelf.put_of_ne hq, h q]

theorem remove (h : Shows m files shelf) (p : Path) :
    Shows m (files.remove p) (shelf.remove p) := by
  intro q
  by_cases hq : q = p
  · rw [hq, Files.find?_remove_self, Shelf.remove_self, Option.map_none]
  · rw [Files.find?_remove_of_ne files hq, Shelf.remove_of_ne hq, h q]

end Shows

/-- The copy into place can be made. -/
def Copies (m : Machine) (shelf : Shelf) (b : Bytes) : Prop :=
  m.copied shelf b = .ok ()

/-- An answer with files and one with a shelf are the same, when the files are those of the
shelf. -/
def SameAnswer (m : Machine) (a : Except Failure Response × Files)
    (a' : Except Failure Response × Shelf) : Prop :=
  a.1 = a'.1 ∧ Shows m a.2 a'.2

section Answers

variable {m : Machine} {config : Config} {stamp name : String} {b : Bytes} {files : Files}
  {shelf : Shelf}

theorem sameAnswer_activate (h : Shows m files shelf)
    (hcopies : Copies m (shelf.put (keptPath config stamp name) b) b) :
    SameAnswer m
      (activate config files (keptPath config stamp name) ⟨name, m.content b, b.length⟩)
      (activated m config stamp name b shelf) := by
  have hput := h.put (keptPath config stamp name) b
  have hremove := h.remove (keptPath config stamp name)
  rw [activate, activated]
  dsimp only
  rw [WorkbookFile.install, Machine.installed]
  cases hpath : WorkbookFile.configured config.workbookPath with
  | error f =>
      rw [WorkbookFile.configured_eq_error hpath]
      exact ⟨rfl, hput⟩
  | ok s =>
      simp only [bind, Except.bind]
      cases hcontent : m.content b with
      | workbook w =>
          have hactive := hput.put (Path.ofText s) b
          rw [hcontent] at hactive
          rw [hcopies]
          refine ⟨rfl, ?_⟩
          dsimp only [WorkbookFile.save]
          rw [WorkbookFile.getD_of_configured hpath]
          exact hactive
      | database d => exact ⟨rfl, hremove⟩
      | text t => exact ⟨rfl, hremove⟩

theorem answer_upload (config : Config) (stamp : String) (files : Files) (u : Upload) :
    answer config stamp files ⟨"POST", "/workbook/upload", .file u⟩ =
      answerUpload config stamp files (.file u) := by
  have hroute : route? "/workbook/upload" = some ("POST", .upload) := by decide +kernel
  have hmethod : upper "POST" = "POST" := by decide +kernel
  simp only [answer, hroute, hmethod, ne_eq, not_true_eq_false, if_false]

/-- As long as copies can be made, the service answers an upload as the stages do. -/
theorem sameAnswer_upload {chunks : List Bytes} (h : Shows m files shelf)
    (hcopies : Copies m (shelf.put (keptPath config stamp name) (sent chunks)) (sent chunks)) :
    SameAnswer m
      (answer config stamp files ⟨"POST", "/workbook/upload",
        .file ⟨name, m.content (sent chunks), (sent chunks).length⟩⟩)
      (upload m config stamp name chunks shelf) := by
  rw [answer_upload, answerUpload]
  by_cases hname : name = ""
  · rw [if_pos hname, upload, if_pos hname]
    exact ⟨rfl, h⟩
  · rw [if_neg hname, receive]
    cases hsuffix : suffixAllowed name with
    | false =>
        rw [upload, if_neg hname, hsuffix]
        exact ⟨rfl, h⟩
    | true =>
        rw [upload_eq m config stamp hname hsuffix]
        cases hsize : sizeAllowed config (sent chunks).length with
        | false => exact ⟨rfl, h.remove _⟩
        | true => exact sameAnswer_activate h hcopies

end Answers

/-- The answer refuses the call. -/
def Refuses (answer : Except Failure Response) : Prop :=
  ∀ response, answer = .ok response → response.status ≠ 200

theorem refuses_ok {response : Response} (h : response.status ≠ 200) : Refuses (.ok response) := by
  rintro _ ⟨⟩
  exact h

theorem refuses_refusal (text : String) : Refuses (.ok (.refusal 400 text)) :=
  refuses_ok (show 400 ≠ 200 by decide)

theorem status_uploadFault (u : Option Upload) : (uploadFault u).status = 422 := by
  cases u with
  | none => rfl
  | some u =>
      unfold uploadFault
      dsimp only
      split <;> rfl

theorem refuses_uploadFault (u : Option Upload) : Refuses (.ok (uploadFault u)) :=
  refuses_ok (by rw [status_uploadFault]; decide)

theorem not_refuses_uploadAccepted (name : String) (kept active : Path) :
    ¬Refuses (.ok (uploadAccepted name kept active)) :=
  fun h => h _ rfl rfl

/-- An upload leaves nothing behind when it is refused: no new file is in the upload directory, and
the workbook is the old one. When it is accepted its size is allowed, and its bytes are kept and are
the workbook. -/
structure LeavesNothing (config : Config) (kept : Path) (b : Bytes) (before after : Shelf)
    (answer : Except Failure Response) : Prop where
  noNewFile : Refuses answer → ∀ p, (Path.ofText config.uploadDir).isWithin p = true →
    before p = none → after p = none
  sameWorkbook : Refuses answer → ∀ s, WorkbookFile.configured config.workbookPath = .ok s →
    after (Path.ofText s) = before (Path.ofText s)
  accepted : ¬Refuses answer → 1 ≤ b.length ∧ (b.length : Int) ≤ config.maxUploadBytes ∧
    after kept = some b ∧ ∃ s, WorkbookFile.configured config.workbookPath = .ok s ∧
      after (Path.ofText s) = some b

/-- A file is written for the upload, whatever becomes of it. -/
def IsWritten (name : String) : Prop :=
  name ≠ "" ∧ suffixAllowed name = true

/-- The upload is refused because no workbook is configured, and its file is a new one. -/
def Orphans (config : Config) (kept : Path) (b : Bytes) (shelf : Shelf) : Prop :=
  sizeAllowed config b.length = true ∧
    (∀ s, WorkbookFile.configured config.workbookPath ≠ .ok s) ∧ shelf kept = none

/-- The file is the workbook itself. -/
def IsWorkbook (config : Config) (kept : Path) (shelf : Shelf) : Prop :=
  (∃ s, WorkbookFile.configured config.workbookPath = .ok s ∧ Path.ofText s = kept) ∧
    shelf kept ≠ none

/-- The upload was written over the workbook, and then it is refused. -/
def Clobbers (m : Machine) (config : Config) (kept : Path) (b : Bytes) (shelf : Shelf) : Prop :=
  IsWorkbook config kept shelf ∧ (sizeAllowed config b.length = false ∨
    ∀ active, m.installed config.workbookPath (shelf.put kept b) b ≠ .ok active)

section Ends

variable {config : Config} {kept : Path} {b : Bytes} {shelf : Shelf}
  {answer : Except Failure Response}

theorem leavesNothing_of_unchanged (hrefuses : Refuses answer) :
    LeavesNothing config kept b shelf shelf answer where
  noNewFile _ _ _ h := h
  sameWorkbook _ _ _ := rfl
  accepted h := absurd hrefuses h

/-- A file that was taken away again does no harm, unless it was the workbook. -/
theorem leavesNothing_remove_iff (hrefuses : Refuses answer) :
    LeavesNothing config kept b shelf (shelf.remove kept) answer ↔
      ¬IsWorkbook config kept shelf := by
  constructor
  · rintro h ⟨⟨s, hs, rfl⟩, hpresent⟩
    have hsame := h.sameWorkbook hrefuses s hs
    rw [Shelf.remove_self] at hsame
    exact hpresent hsame.symm
  · intro h
    constructor
    case noNewFile =>
      intro _ p _ hp
      by_cases hkept : p = kept
      · rw [hkept, Shelf.remove_self]
      · rw [Shelf.remove_of_ne hkept, hp]
    case sameWorkbook =>
      intro _ s hs
      by_cases hkept : Path.ofText s = kept
      · have habsent : shelf kept = none := by
          by_contra hpresent
          exact h ⟨⟨s, hs, hkept⟩, hpresent⟩
        rw [hkept, Shelf.remove_self, habsent]
      · rw [Shelf.remove_of_ne hkept]
    case accepted => exact fun haccepted => absurd hrefuses haccepted

/-- A file that stays does no harm only where one was before. -/
theorem leavesNothing_put_iff (hrefuses : Refuses answer)
    (hpath : ∀ s, WorkbookFile.configured config.workbookPath ≠ .ok s)
    (hwithin : (Path.ofText config.uploadDir).isWithin kept = true) :
    LeavesNothing config kept b shelf (shelf.put kept b) answer ↔ ¬shelf kept = none := by
  constructor
  · intro h habsent
    have hnone := h.noNewFile hrefuses kept hwithin habsent
    rw [Shelf.put_self] at hnone
    cases hnone
  · intro hpresent
    constructor
    case noNewFile =>
      intro _ p _ hp
      have hne : p ≠ kept := fun heq => hpresent (heq ▸ hp)
      rw [Shelf.put_of_ne hne, hp]
    case sameWorkbook => exact fun _ s hs => absurd hs (hpath s)
    case accepted => exact fun haccepted => absurd hrefuses haccepted

theorem leavesNothing_accepted (haccepted : ¬Refuses answer)
    (hsize : sizeAllowed config b.length = true) {s : String}
    (hs : WorkbookFile.configured config.workbookPath = .ok s) :
    LeavesNothing config kept b shelf ((shelf.put kept b).put (Path.ofText s) b) answer where
  noNewFile hrefuses := absurd hrefuses haccepted
  sameWorkbook hrefuses := absurd hrefuses haccepted
  accepted _ := by
    obtain ⟨hzero, hcap⟩ := sizeAllowed_iff.1 hsize
    refine ⟨Nat.pos_of_ne_zero hzero, hcap, ?_, s, hs, Shelf.put_self⟩
    by_cases hkept : kept = Path.ofText s
    · rw [← hkept, Shelf.put_self]
    · rw [Shelf.put_of_ne hkept, Shelf.put_self]

end Ends

theorem isWithin_keptPath (config : Config) (stamp name : String) :
    (Path.ofText config.uploadDir).isWithin (keptPath config stamp name) = true :=
  Path.isWithin_join _ _

section Upload

variable {m : Machine} {config : Config} {stamp name : String} {b : Bytes} {shelf : Shelf}

/-- Without a workbook the upload is refused, and its file stays. -/
theorem activated_of_unset {f : Failure}
    (h : WorkbookFile.configured config.workbookPath = .error f) :
    activated m config stamp name b shelf =
      (ofFailure (.query .workbookUnset), shelf.put (keptPath config stamp name) b) := by
  obtain rfl := WorkbookFile.configured_eq_error h
  rw [activated, Machine.installed_of_error h]

theorem leavesNothing_activated_iff (hsize : sizeAllowed config b.length = true) :
    LeavesNothing config (keptPath config stamp name) b shelf
        (activated m config stamp name b shelf).2 (activated m config stamp name b shelf).1 ↔
      ¬(Orphans config (keptPath config stamp name) b shelf ∨
        Clobbers m config (keptPath config stamp name) b shelf) := by
  cases hpath : WorkbookFile.configured config.workbookPath with
  | error f =>
      have hnone : ∀ s, WorkbookFile.configured config.workbookPath ≠ .ok s := by
        simp [hpath]
      have hrefuses : Refuses (ofFailure (.query .workbookUnset)) := refuses_ok (by decide)
      have hclobbers : ¬Clobbers m config (keptPath config stamp name) b shelf :=
        fun h => h.1.1.elim fun s hs => hnone s hs.1
      rw [activated_of_unset hpath, or_iff_left hclobbers, Orphans, and_iff_right hsize,
        and_iff_right hnone]
      exact leavesNothing_put_iff hrefuses hnone (isWithin_keptPath config stamp name)
  | ok s =>
      have horphans : ¬Orphans config (keptPath config stamp name) b shelf :=
        fun h => h.2.1 s hpath
      rw [activated, or_iff_right horphans, Clobbers, hsize]
      cases hinstalled : m.installed config.workbookPath
          (shelf.put (keptPath config stamp name) b) b with
      | ok active =>
          obtain rfl := Machine.eq_of_installed hpath hinstalled
          have hnot : ¬∀ active, (.ok (Path.ofText s) : Except Failure Path) ≠ .ok active :=
            fun h => h _ rfl
          rw [iff_true_right fun h => h.2.elim nofun hnot]
          exact leavesNothing_accepted (not_refuses_uploadAccepted _ _ _) hsize hpath
      | error f =>
          have hfailed : ∀ active, (.error f : Except Failure Path) ≠ .ok active := nofun
          rw [and_iff_left (.inr hfailed)]
          cases f with
          | query e => exact absurd hinstalled (Machine.installed_ne_query hpath e)
          | _ => exact leavesNothing_remove_iff (refuses_refusal _)

/-- An upload leaves nothing behind unless no workbook is configured and its file is a new one, or
its file is the workbook itself. -/
theorem leavesNothing_upload_iff (m : Machine) (config : Config) (stamp name : String)
    (chunks : List Bytes) (shelf : Shelf) :
    LeavesNothing config (keptPath config stamp name) (sent chunks) shelf
        (upload m config stamp name chunks shelf).2 (upload m config stamp name chunks shelf).1 ↔
      ¬(IsWritten name ∧ (Orphans config (keptPath config stamp name) (sent chunks) shelf ∨
        Clobbers m config (keptPath config stamp name) (sent chunks) shelf)) := by
  by_cases hwritten : IsWritten name
  · obtain ⟨hname, hsuffix⟩ := hwritten
    rw [and_iff_right ⟨hname, hsuffix⟩, upload_eq m config stamp hname hsuffix]
    cases hsize : sizeAllowed config (sent chunks).length with
    | true => exact leavesNothing_activated_iff hsize
    | false =>
        have horphans : ¬Orphans config (keptPath config stamp name) (sent chunks) shelf :=
          fun h => Bool.false_ne_true (hsize.symm.trans h.1)
        rw [or_iff_right horphans, Clobbers, hsize, eq_self, true_or, and_true]
        exact leavesNothing_remove_iff (refuses_refusal _)
  · rw [iff_true_right fun h => hwritten h.1, upload]
    by_cases hname : name = ""
    · rw [if_pos hname]
      exact leavesNothing_of_unchanged (refuses_uploadFault _)
    · have hsuffix : suffixAllowed name = false := by
        by_contra hallowed
        exact hwritten ⟨hname, by simpa using hallowed⟩
      rw [if_neg hname, hsuffix]
      exact leavesNothing_of_unchanged (refuses_refusal _)

/-- What is known of an upload: whether it leaves nothing behind, and that the service answers it
as the stages do. -/
structure IsReceived (m : Machine) (config : Config) (stamp name : String) (chunks : List Bytes)
    (shelf : Shelf) : Prop where
  leavesNothing_iff :
    LeavesNothing config (keptPath config stamp name) (sent chunks) shelf
        (upload m config stamp name chunks shelf).2 (upload m config stamp name chunks shelf).1 ↔
      ¬(IsWritten name ∧ (Orphans config (keptPath config stamp name) (sent chunks) shelf ∨
        Clobbers m config (keptPath config stamp name) (sent chunks) shelf))
  served : ∀ files, Shows m files shelf →
    Copies m (shelf.put (keptPath config stamp name) (sent chunks)) (sent chunks) →
      SameAnswer m
        (answer config stamp files ⟨"POST", "/workbook/upload",
          .file ⟨name, m.content (sent chunks), (sent chunks).length⟩⟩)
        (upload m config stamp name chunks shelf)

theorem isReceived (m : Machine) (config : Config) (stamp name : String) (chunks : List Bytes)
    (shelf : Shelf) : IsReceived m config stamp name chunks shelf where
  leavesNothing_iff := leavesNothing_upload_iff m config stamp name chunks shelf
  served _ hshows hcopies := sameAnswer_upload hshows hcopies

end Upload

/-- Two bytes are a workbook without sheets, and all others a text. -/
def pkMachine : Machine where
  content b := if b = [80, 75] then .workbook ⟨[]⟩ else .text ""
  temp shelf :=
    match shelf (Path.ofText "tmp") with
    | none => .ok (Path.ofText "tmp")
    | some _ => .error (.fileMissing "tmp")
  copyFault _ := none
  fresh shelf p h := by
    split at h
    · next habsent =>
        cases h
        exact habsent
    · cases h
  temp_ne_query shelf e := by
    split <;> nofun
  copyFault_ne_query _ _ := nofun

/-- No workbook is configured. -/
def unsetConfig : Config :=
  { databasePath := none, workbookPath := none, uploadDir := "uploads", timeout := none,
    mode := .safe, maxUploadBytes := 1048576 }

/-- The upload is refused, and its file stays. -/
theorem not_leavesNothing_unset :
    (upload pkMachine unsetConfig "now" "new.xlsx" [[80], [75]] fun _ => none).1 =
      .ok ⟨500, .failure (.query .workbookUnset), none⟩ ∧
    (upload pkMachine unsetConfig "now" "new.xlsx" [[80], [75]] fun _ => none).2
      (Path.ofText "uploads/new_now.xlsx") = some [80, 75] ∧
    ¬LeavesNothing unsetConfig (keptPath unsetConfig "now" "new.xlsx") (sent [[80], [75]])
      (fun _ => none) (upload pkMachine unsetConfig "now" "new.xlsx" [[80], [75]] fun _ => none).2
      (upload pkMachine unsetConfig "now" "new.xlsx" [[80], [75]] fun _ => none).1 := by
  have hsuffix : suffixAllowed "new.xlsx" = true := by decide +kernel
  have hkept : keptPath unsetConfig "now" "new.xlsx" = Path.ofText "uploads/new_now.xlsx" := by
    decide +kernel
  have hunset : WorkbookFile.configured unsetConfig.workbookPath =
      .error (.query .workbookUnset) := rfl
  have hupload : upload pkMachine unsetConfig "now" "new.xlsx" [[80], [75]] (fun _ => none) =
      (ofFailure (.query .workbookUnset),
        Shelf.put (fun _ => none) (Path.ofText "uploads/new_now.xlsx") [80, 75]) := by
    rw [upload_eq _ _ _ (by decide) hsuffix, if_pos (by decide), activated_of_unset hunset, hkept]
    rfl
  refine ⟨by rw [hupload]; rfl, by simp only [hupload, Shelf.put_self], ?_⟩
  rw [leavesNothing_upload_iff, not_not]
  exact ⟨⟨by decide, hsuffix⟩, .inl ⟨rfl, nofun, rfl⟩⟩

end TableQuery.Web
