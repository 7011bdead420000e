import Linewise.Fault.Linux
import Linewise.Proofs.Overflow
import Linewise.Proofs.ReportRows

/-!
# Reports to a full device

Before a full device a run goes on as before a writable one for as long as its output can be
held back.  There are two ways for it to notice.  The device may refuse what has to be sent
inside a file, but only if the files up to this one show more than the buffer holds.  Or all
files are got over, and then the end of the run notices.  A run that shows nothing has nothing
to flush, and ends as before a writable device.

* `Session.broken_of_visitFile` — a file at which a run is broken off shows more than the
  buffer holds, together with the files before it;
* `Session.Reached.close_full` — the end of a run notices, unless there is nothing to show;
* `Notices` — where a run notices, and what it says; `runFiles_full` — **a run that shows
  anything notices, and a run that notices has shown something**;
* `report_notices_full_device` — **a full device is never passed over in silence.**
-/

namespace Linewise

/-- The first piece of what a file shows holds a number, and is not all there is. -/
theorem of_mem_head?_filePieces {mode : Mode} {file : Path} {ls : List Bytes} {piece : Bytes}
    (h : piece ∈ (filePieces mode file ls).head?) :
    piece ≠ [] ∧ piece.length < (filePieces mode file ls).flatten.length := by
  cases mode with
  | counts =>
      obtain rfl : decimal ls.length = piece := by simpa [filePieces, countLine] using h
      exact ⟨decimal_ne_nil _, by simp [filePieces, countLine]⟩
  | numbered =>
      cases ls with
      | nil => cases h
      | cons line ls =>
          obtain rfl : padded numberWidth 1 ++ [tab] = piece := by
            simpa [filePieces, piecesAfter, numberedLine] using h
          refine ⟨by simp, ?_⟩
          simp only [filePieces, piecesAfter, numberedLine, Nat.zero_add, List.cons_append,
            List.nil_append, List.flatten_cons, List.length_append, List.length_cons,
            List.length_nil]
          omega
  | total => cases h

/-- A summary that shows nothing is not written at all. -/
theorem summaryPieces_eq_nil {mode : Mode} {named total : Nat}
    (h : terminated (summaryRows mode named total) = []) :
    summaryPieces mode named total = [] := by
  rw [← flatten_summaryPieces] at h
  cases mode with
  | counts =>
      by_cases hmany : 1 < named
      · simp [summaryPieces, hmany, grandTotalLine] at h
      · simp [summaryPieces, hmany]
  | numbered => rfl
  | total => simp [summaryPieces, totalLine] at h

/-- All that a run shows of the files it is given. -/
def FileSystem.shown [Platform] (files : FileSystem) (settings : Settings) : Bytes :=
  terminated (files.rows settings.mode settings.files ++
    summaryRows settings.mode settings.files.length (files.lineSum settings.files))

/-- Nothing is shown exactly if neither the files nor the summary show anything. -/
theorem FileSystem.shown_eq_nil_iff [Platform] {files : FileSystem} {settings : Settings} :
    files.shown settings = [] ↔ terminated (files.rows settings.mode settings.files) = [] ∧
      terminated (summaryRows settings.mode settings.files.length
        (files.lineSum settings.files)) = [] := by
  rw [shown, terminated_append, List.append_eq_nil_iff]

/-- What a run shows begins with what its first files show. -/
theorem FileSystem.rows_prefix_shown [Platform] (files : FileSystem) {settings : Settings}
    {front : List Path} (h : front <+: settings.files) :
    terminated (files.rows settings.mode front) <+: files.shown settings := by
  obtain ⟨back, hback⟩ := h
  simp only [shown, ← hback, rows, opened, List.filter_append, List.flatMap_append,
    terminated_append, List.append_assoc]
  exact List.prefix_append _ _

namespace Session

variable [Platform] {files : FileSystem} {device : Device} {settings : Settings} {named : List Path}
  {s : Session} {file : Path} {opts : Options}

/-- **A run is broken off inside a file** only if this file and those before it show more than
the buffer holds.  The complaints are those about the files before it, since it could be
opened. -/
theorem broken_of_visitFile {b : Breakdown} (h : Reached files device settings.mode named s)
    (hvisit : s.visitFile files settings opts file = .error b) :
    b = ⟨refusedText settings.mode file .noSpace :: files.complaints (named ++ [file])⟩ ∧
      Output.capacity < (terminated (files.rows settings.mode (named ++ [file]))).length := by
  unfold visitFile at hvisit
  split at hvisit
  · cases hvisit
  · next r hopen =>
      rw [s.showFile_eq opts hopen] at hvisit
      split at hvisit
      · cases hvisit
      · next e hwrite =>
          cases hvisit
          have hover := Output.writeAll_overflow hwrite (Or.inr fun _ => of_mem_head?_filePieces)
          obtain rfl := Output.eq_noSpace_of_writeAll hwrite
          constructor
          · rw [breakOff, h.complaints_eq, FileSystem.complaints, FileSystem.complaints,
              FileSystem.refusals_concat_of_openFile hopen]
          · rwa [h.contents_eq, flatten_filePieces,
              ← FileSystem.terminated_rows_concat_of_openFile hopen] at hover

/-- A file that has been visited has not reached a full device. -/
theorem blocked_of_visitFile {next : Session} (h : s.output.Blocked)
    (hvisit : s.visitFile files settings opts file = .ok next) : next.output.Blocked := by
  unfold visitFile at hvisit
  split at hvisit
  · cases hvisit
    exact h
  · next r hopen =>
      rw [s.showFile_eq opts hopen] at hvisit
      split at hvisit
      · next output hwrite =>
          cases hvisit
          exact h.writeAll hwrite
      · cases hvisit

/-- **The end of a run notices a full device**, unless there is nothing to show. -/
theorem Reached.close_full (h : Reached files .full settings.mode settings.files s)
    (hblocked : s.output.Blocked) :
    s.close settings =
      if files.shown settings = [] then .ok s
      else .error (s.breakOff IoError.noSpace.display) := by
  rw [s.close_eq]
  by_cases hnone : files.shown settings = []
  · obtain ⟨hrows, hsummary⟩ := FileSystem.shown_eq_nil_iff.mp hnone
    have hflush : s.output.flush = .ok s.output := by
      rw [hblocked.flush, if_pos (h.contents_eq.trans hrows)]
    rw [if_pos hnone, h.summaryPieces_eq, summaryPieces_eq_nil hsummary]
    simp only [Output.writeAll, List.foldlM_nil, pure, Except.pure, hflush]
  · rw [if_neg hnone]
    obtain ⟨output, hwrite, -, hcontents⟩ | ⟨e, hwrite, -⟩ := h.writeSummary
    · have hflush : output.flush = .error .noSpace := by
        rw [(hblocked.writeAll hwrite).flush, hcontents, ← FileSystem.shown, if_neg hnone]
      simp only [hwrite, hflush]
    · rw [hwrite, Output.eq_noSpace_of_writeAll hwrite]

end Session

/-- Where a run notices a full device, and what it says then.  The files are those that it
has come to. -/
inductive Notices [Platform] (files : FileSystem) (settings : Settings) : List Path → String → Prop
  /-- The device is not noticed before the end of the run. -/
  | atEnd : Notices files settings settings.files IoError.noSpace.display
  /-- The device is noticed inside a file. -/
  | inside {front back : List Path} {file : Path} (split : settings.files = front ++ file :: back)
      (overflow : Output.capacity <
        (terminated (files.rows settings.mode (front ++ [file]))).length) :
      Notices files settings (front ++ [file]) (refusedText settings.mode file .noSpace)

namespace Notices

variable [Platform] {files : FileSystem} {settings : Settings} {front : List Path} {text : String}

/-- The files that the run has come to are the first of those it was given. -/
theorem prefix_files (h : Notices files settings front text) : front <+: settings.files := by
  cases h with
  | atEnd => exact List.prefix_rfl
  | @inside front back file split overflow => exact ⟨back, by simp [split]⟩

/-- A device that is noticed inside a file is noticed for more than the buffer holds. -/
theorem atEnd_of_length_le (h : Notices files settings front text)
    (hlength : (files.shown settings).length ≤ Output.capacity) :
    front = settings.files ∧ text = IoError.noSpace.display := by
  have hrows := (files.rows_prefix_shown h.prefix_files).length_le
  cases h with
  | atEnd => exact ⟨rfl, rfl⟩
  | inside split overflow => omega

/-- Only lines behind their numbers are mentioned. -/
theorem eq_display_or_numbered (h : Notices files settings front text) :
    text = IoError.noSpace.display ∨
      settings.mode = .numbered ∧ ∃ earlier file, front = earlier ++ [file] ∧
        text = "writing lines of " ++ Utf8.lossy file ++ ": " ++ IoError.noSpace.display ∧
        Output.capacity < (terminated (files.rows settings.mode front)).length := by
  cases h with
  | atEnd => exact Or.inl rfl
  | @inside front back file split overflow =>
      cases hmode : settings.mode with
      | counts => exact Or.inl rfl
      | total => exact Or.inl rfl
      | numbered => exact Or.inr ⟨rfl, front, file, rfl, rfl, hmode ▸ overflow⟩

end Notices

/-- **A run before a full device** notices it exactly if there is anything to show. -/
theorem runFiles_full [Platform] (files : FileSystem) (settings : Settings) (opts : Options) :
    (files.shown settings = [] ∧ ∃ s, runFiles files .full settings opts = .ok s ∧
      Session.Reached files .full settings.mode settings.files s) ∨
    (files.shown settings ≠ [] ∧ ∃ front text, Notices files settings front text ∧
      runFiles files .full settings opts = .error ⟨text :: files.complaints front⟩) := by
  have hvisits := Session.visits files .full settings opts
  unfold runFiles
  cases hfold : settings.files.foldlM (Session.visitFile files settings opts)
      (Session.start .full) with
  | ok s =>
      rw [hfold] at hvisits
      cases hvisits with
      | through reached =>
          -- Nothing has been sent so far, so the end of the run is the first to notice.
          have hblocked : s.output.Blocked :=
            foldlM_invariant (motive := fun s : Session => s.output.Blocked)
              (fun _ _ _ h hvisit => Session.blocked_of_visitFile h hvisit)
              Output.blocked_toDevice hfold
          simp only [reached.close_full hblocked]
          split
          · next hnone => exact Or.inl ⟨hnone, s, rfl, reached⟩
          · next hsome =>
              refine Or.inr ⟨hsome, settings.files, _, .atEnd, ?_⟩
              rw [Session.breakOff, reached.complaints_eq]
  | error b =>
      obtain ⟨front, file, back, mid, hsplit, hfront, hvisit⟩ := exists_of_foldlM_error hfold
      have hreached := (Session.Reached.start files .full settings.mode).visitFiles opts front
      rw [hfront, List.nil_append] at hreached
      cases hreached with
      | through reached =>
          obtain ⟨rfl, hover⟩ := Session.broken_of_visitFile reached hvisit
          have hnotices : Notices files settings (front ++ [file]) _ := .inside hsplit hover
          -- What a run was broken off for is part of what all of its files show.
          have hrows := (files.rows_prefix_shown hnotices.prefix_files).length_le
          refine Or.inr ⟨?_, _, _, hnotices, rfl⟩
          rw [← List.length_pos_iff]
          omega

/-- A complaint comes behind those made before it. -/
theorem complaintText_cons (text : String) (latest : List String) :
    complaintText (text :: latest) =
      complaintText latest ++ (programName ++ ": " ++ text ++ "\n") := by
  simp [complaintText, String.join_append]

/-- **A full device is never passed over in silence.**  Let the platform say of such a device
that no space is left on it.  A run that shows nothing goes as it would before a writable
device.  A run that shows anything fails: behind the complaints about
the files it has come to stands one about the device.  It has come to all of them if what it
shows fits the buffer.  Only lines behind their numbers are mentioned with the file they
belong to, and this file and those before it show more than the buffer holds. -/
theorem report_notices_full_device [Platform]
    (hspace : Platform.text 28 = "No space left on device") (files : FileSystem)
    {arguments : List Bytes} {settings : Settings}
    (hrun : Request.ofArguments arguments = .run settings)
    (hlow : Options.minThreads ≤ settings.threads)
    (hhigh : settings.threads ≤ Options.maxThreads) :
    let normal := respond files .writable arguments
    let full := respond files .full arguments
    let noSpace := "No space left on device (os error 28)"
    (normal.stdout = [] → full = normal) ∧
    (normal.stdout ≠ [] → full.exitCode = 1 ∧ full.stdout = [] ∧
      ∃ front message, front <+: settings.files ∧
        full.stderr = String.join
          ((front.filterMap files.refusal?).map fun e => "flines: " ++ e.message ++ "\n") ++
            ("flines: " ++ message ++ "\n") ∧
        (normal.stdout.length ≤ 262144 → front = settings.files ∧ message = noSpace) ∧
        (message = noSpace ∨ settings.mode = .numbered ∧
          ∃ earlier file, front = earlier ++ [file] ∧
            message = "writing lines of " ++ Utf8.lossy file ++ ": " ++ noSpace ∧
            let upTo := (report files .writable { settings with files := front }).stdout
            upTo <+: normal.stdout ∧ 262144 < upTo.length)) := by
  intro normal full noSpace
  have hnormal : normal = report files .writable settings := respond_of_run hrun files .writable
  have hfull : full = report files .full settings := respond_of_run hrun files .full
  have hshown : normal.stdout = files.shown settings := by
    rw [hnormal, report_writable files settings hlow hhigh, FileSystem.shown]
  have hnoSpace : IoError.noSpace.display = noSpace := by
    rw [IoError.noSpace, IoError.display, hspace]
    rfl
  obtain ⟨opts, hopts⟩ := Options.exists_new hlow hhigh settings.minSize
  rw [hshown, ← hnoSpace]
  obtain ⟨hnone, s, hruns, hreached⟩ | ⟨hsome, front, text, hnotices, hruns⟩ :=
    runFiles_full files settings opts
  · refine ⟨fun _ => ?_, fun hsome => absurd hnone hsome⟩
    have hcontents : s.output.contents = [] :=
      hreached.contents_eq.trans (FileSystem.shown_eq_nil_iff.mp hnone).1
    rw [hfull, hnormal, report_writable files settings hlow hhigh, ← FileSystem.shown, hnone]
    simp only [report, hopts, hruns, hcontents, hreached.complaints_eq,
      FileSystem.isEmpty_complaints_iff]
  · refine ⟨fun hnone => absurd hnone hsome, fun _ => ?_⟩
    have hanswer : full = ⟨1, [], complaintText (text :: files.complaints front)⟩ := by
      simp only [hfull, report, hopts, hruns]
    rw [hanswer, complaintText_cons, complaintText_complaints]
    refine ⟨rfl, rfl, front, text, hnotices.prefix_files, rfl, hnotices.atEnd_of_length_le, ?_⟩
    refine hnotices.eq_display_or_numbered.imp_right ?_
    rintro ⟨hmode, earlier, file, hfront, hmessage, hover⟩
    refine ⟨hmode, earlier, file, hfront, hmessage, ?_⟩
    have hupTo : (report files .writable { settings with files := front }).stdout =
        terminated (files.rows settings.mode front) := by
      rw [report_writable files { settings with files := front } hlow hhigh]
      simp [hmode, summaryRows]
    rw [hupTo]
    exact ⟨files.rows_prefix_shown hnotices.prefix_files, hover⟩

/-- One line, behind a name that leads nowhere.  It fits the buffer, so the last flush
notices. -/
theorem report_notices_full_device_after_a_missing_file :
    let files : FileSystem := fun file =>
      if file = [97] then .ok (.regular [120, 10]) else .error .noSuchFile
    let arguments := ["-n", "m", "a"].map Utf8.encode
    let settings : Settings := ⟨2, 1048576, false, .numbered, [[109], [97]]⟩
    Platform.text 28 = "No space left on device" ∧
      Request.ofArguments arguments = .run settings ∧
      Options.minThreads ≤ settings.threads ∧ settings.threads ≤ Options.maxThreads ∧
      (respond files .writable arguments).stdout = Utf8.encode "     1\tx\n" ∧
      (respond files .full arguments).exitCode = 1 ∧
      (respond files .full arguments).stderr =
        "flines: m: No such file or directory\n" ++
          "flines: No space left on device (os error 28)\n" := by
  intro files arguments settings
  have hrun : Request.ofArguments arguments = .run settings := by decide
  have hlow : Options.minThreads ≤ settings.threads := by decide
  have hhigh : settings.threads ≤ Options.maxThreads := by decide
  have hrefused : settings.files.filterMap files.refusal? = [.missing [109] .noSuchFile] := by
    decide +kernel
  have hopened : settings.files.filter files.opens = [[97]] := by decide
  have hcontent : files.content [97] = [120, 10] := rfl
  have hlines : files.linesOf [97] = [[120]] := by
    rw [FileSystem.linesOf, hcontent]
    decide +kernel
  have hrows : files.rows .numbered settings.files = [numberedRow 1 [120]] := by
    rw [FileSystem.rows, FileSystem.opened, hopened, List.flatMap_singleton, hlines]
    rfl
  have hstdout : (respond files .writable arguments).stdout = Utf8.encode "     1\tx\n" := by
    rw [respond_of_run hrun, report_writable files settings hlow hhigh]
    simp only [settings, summaryRows, List.append_nil, hrows]
    decide
  have hspace : Platform.text 28 = "No space left on device" := by decide +kernel
  obtain ⟨-, hnotices⟩ := report_notices_full_device hspace files hrun hlow hhigh
  obtain ⟨hexit, -, front, message, -, hstderr, hfits, -⟩ := hnotices (by rw [hstdout]; decide)
  obtain ⟨rfl, rfl⟩ := hfits (by rw [hstdout]; decide)
  refine ⟨hspace, hrun, hlow, hhigh, hstdout, hexit, ?_⟩
  rw [hstderr, hrefused]
  decide +kernel

end Linewise
