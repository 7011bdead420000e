import Linewise.Proofs.NumberedLines
import Linewise.Proofs.OpenedFiles

/-!
# From file to file

A run goes from file to file and carries three things along: what it has written, how many
lines it has counted, as far as sixty-four bits keep their number, and what it has complained
about.  `Session.Reached` says what each of them is after some of the files, in terms of these
files alone.  A file that can be opened adds to the first two, one that cannot adds to the third,
and neither touches what belongs to the other.  Only a device that refuses output ends the run
early.

* `filePieces`, `summaryPieces` — the pieces in which a file and a summary are written;
  `Session.showFile_eq` and `Session.close_eq` say that nothing else is written;
* `Session.Visits` — what visiting files comes to;
* `Session.Reached.complain`, `Session.Reached.addRows` — what a file adds;
* `Session.Reached.visitFile` — one more file; `Session.visits` — **all of them, on any
  device**;
* `Session.Reached.close` — the summary, and the end of the output.
-/

namespace Linewise

namespace FileSystem

variable [Platform] {files : FileSystem} {file : Path} {r : Reader}

/-- One more file that can be opened. -/
theorem opened_concat_of_openFile (hopen : Reader.openFile files file = .ok r)
    (named : List Path) : files.opened (named ++ [file]) = files.opened named ++ [file] := by
  simp [opened, (opens_of_openFile hopen).1]

/-- One that cannot is not among the opened ones. -/
theorem opened_concat_of_refused {e : OpenError} (hopen : Reader.openFile files file = .error e)
    (named : List Path) : files.opened (named ++ [file]) = files.opened named := by
  simp [opened, (refusal?_of_openFile hopen).1]

/-- One more file that can be opened is not refused. -/
theorem refusals_concat_of_openFile (hopen : Reader.openFile files file = .ok r)
    (named : List Path) : files.refusals (named ++ [file]) = files.refusals named := by
  simp [refusals, (opens_of_openFile hopen).2]

/-- One that cannot is refused behind the others. -/
theorem refusals_concat_of_refused {e : OpenError}
    (hopen : Reader.openFile files file = .error e) (named : List Path) :
    files.refusals (named ++ [file]) = files.refusals named ++ [e] := by
  simp [refusals, (refusal?_of_openFile hopen).2]

/-- One more file that can be opened shows its rows behind the others. -/
theorem terminated_rows_concat_of_openFile (hopen : Reader.openFile files file = .ok r)
    (mode : Mode) (named : List Path) :
    terminated (files.rows mode (named ++ [file])) =
      terminated (files.rows mode named) ++
        terminated (fileRows mode file (files.linesOf file)) := by
  rw [rows, rows, opened_concat_of_openFile hopen, List.flatMap_append, terminated_append]
  simp

end FileSystem

/-- The complaints about those of the named files that cannot be opened, the latest first. -/
def FileSystem.complaints [Platform] (files : FileSystem) (named : List Path) : List String :=
  ((files.refusals named).map OpenError.message).reverse

/-- There is nothing to complain about exactly if all of the files can be opened. -/
theorem FileSystem.isEmpty_complaints_iff [Platform] (files : FileSystem) (named : List Path) :
    (files.complaints named).isEmpty = true ↔ files.opened named = named := by
  rw [opened_eq_self_iff]
  simp [complaints]

/-- The pieces in which a file with the lines `ls` is shown. -/
def filePieces (mode : Mode) (file : Path) (ls : List Bytes) : List Bytes :=
  match mode with
  | .counts => countLine ls.length file
  | .numbered => piecesAfter 0 ls
  | .total => []

/-- The pieces of a file are its rows, each of them ended. -/
theorem flatten_filePieces (mode : Mode) (file : Path) (ls : List Bytes) :
    (filePieces mode file ls).flatten = terminated (fileRows mode file ls) := by
  cases mode with
  | counts => simp [filePieces, fileRows, countRow, countLine, terminated]
  | numbered => rw [filePieces, flatten_piecesAfter, rowsAfter_zero, fileRows]
  | total => rfl

/-- What a file with so many lines adds to the sum.  Lines that are shown behind their
numbers are not added up. -/
def addend (mode : Mode) (count : Nat) : Nat :=
  match mode with
  | .numbered => 0
  | _ => count

/-- Lines that are not shown behind their numbers are added up. -/
theorem addend_of_ne {mode : Mode} (h : mode ≠ .numbered) (count : Nat) :
    addend mode count = count := by
  cases mode with
  | numbered => exact absurd rfl h
  | counts => rfl
  | total => rfl

/-- The pieces in which the summary is written. -/
def summaryPieces (mode : Mode) (named total : Nat) : List Bytes :=
  match mode with
  | .counts => if 1 < named then grandTotalLine total else []
  | .numbered => []
  | .total => totalLine total

/-- The pieces of the summary are its rows, each of them ended. -/
theorem flatten_summaryPieces (mode : Mode) (named total : Nat) :
    (summaryPieces mode named total).flatten = terminated (summaryRows mode named total) := by
  cases mode with
  | counts =>
      by_cases hmany : 1 < named
      · simp [hmany, summaryPieces, summaryRows, grandTotalLine, grandTotalRow, terminated]
      · simp [hmany, summaryPieces, summaryRows, terminated]
  | numbered => rfl
  | total => simp [summaryPieces, summaryRows, totalLine, terminated]

/-- The complaint about a device that refused output while a file was shown. -/
def refusedText [Platform] (mode : Mode) (file : Path) (e : IoError) : String :=
  match mode with
  | .numbered => "writing lines of " ++ Utf8.lossy file ++ ": " ++ e.display
  | _ => e.display

namespace Session

variable [Platform] {files : FileSystem} {device : Device} {mode : Mode} {named : List Path}
  {s : Session} {file : Path} {r : Reader}

/-- **A file is shown** by writing its pieces, and adds its lines to the sum. -/
theorem showFile_eq {settings : Settings} (s : Session) (opts : Options)
    (hopen : Reader.openFile files file = .ok r) :
    s.showFile settings opts file r =
      match s.output.writeAll (filePieces settings.mode file (files.linesOf file)) with
      | .ok output =>
          .ok { s with
            output := output
            total := s.total + UInt64.ofNat (addend settings.mode (files.linesOf file).length) }
      | .error e => .error (s.breakOff (refusedText settings.mode file e)) := by
  have hcount := countFile_of_openFile hopen opts settings.sequential
  unfold showFile
  cases settings.mode with
  | counts =>
      rw [hcount]
      simp only [write, filePieces]
      cases s.output.writeAll (countLine (files.linesOf file).length file) <;> rfl
  | numbered =>
      have htotal : s.total + UInt64.ofNat (addend .numbered (files.linesOf file).length) =
          s.total := UInt64.add_zero s.total
      rw [printNumbered_eq, (Reader.fresh_of_openFile hopen).2, ← Scanner.rest_eq, htotal]
      rfl
  | total =>
      rw [hcount]
      rfl

/-- **A run is closed** by writing the pieces of the summary and driving out the output. -/
theorem close_eq (s : Session) (settings : Settings) :
    s.close settings =
      match s.output.writeAll
          (summaryPieces settings.mode settings.files.length s.total.toNat) with
      | .ok output =>
          match output.flush with
          | .ok output => .ok { s with output := output }
          | .error e => .error (s.breakOff e.display)
      | .error e => .error (s.breakOff e.display) := by
  unfold close
  extract_lets summary
  have hsummary : summary =
      summaryPieces settings.mode settings.files.length s.total.toNat := by
    simp only [summary, summaryPieces]
    cases settings.mode <;> rfl
  rw [hsummary, write]
  cases s.output.writeAll (summaryPieces settings.mode settings.files.length s.total.toNat) <;>
    rfl

/-- What a session has come to after the files `named`. -/
structure Reached (files : FileSystem) (device : Device) (mode : Mode) (named : List Path)
    (s : Session) : Prop where
  device_eq : s.output.device = device
  contents_eq : s.output.contents = terminated (files.rows mode named)
  /-- Lines that are shown behind their numbers are not added up. -/
  total_eq : mode ≠ .numbered → s.total = UInt64.ofNat (files.lineTotal named)
  complaints_eq : s.complaints = files.complaints named

/-- What visiting the files `named` comes to.  Either all of them have been visited, or the
device has refused what one of them shows. -/
inductive Visits (files : FileSystem) (device : Device) (mode : Mode) (named : List Path) :
    Except Breakdown Session → Prop
  | through {s : Session} (reached : Reached files device mode named s) :
      Visits files device mode named (.ok s)
  | broken {front back : List Path} {file : Path} {e : IoError}
      (split : named = front ++ file :: back) (refused : device.accept = .error e) :
      Visits files device mode named (.error ⟨refusedText mode file e :: files.complaints front⟩)

/-- **A writable device** is no reason to break off. -/
theorem Visits.exists_of_writable {result : Except Breakdown Session}
    (h : Visits files .writable mode named result) :
    ∃ s, result = .ok s ∧ Reached files .writable mode named s := by
  cases h with
  | @through s reached => exact ⟨s, rfl, reached⟩
  | broken split refused => cases refused

namespace Reached

/-- Before the first file there is nothing. -/
theorem start (files : FileSystem) (device : Device) (mode : Mode) :
    Reached files device mode [] (start device) where
  device_eq := rfl
  contents_eq := rfl
  total_eq := fun _ => rfl
  complaints_eq := rfl

/-- A file that cannot be opened adds a complaint and nothing else. -/
theorem complain {e : OpenError} (h : Reached files device mode named s)
    (hopen : Reader.openFile files file = .error e) :
    Reached files device mode (named ++ [file]) (s.complain e.message) where
  device_eq := h.device_eq
  contents_eq := by
    rw [FileSystem.rows, FileSystem.opened_concat_of_refused hopen]
    exact h.contents_eq
  total_eq := by
    intro hmode
    rw [FileSystem.lineTotal, FileSystem.opened_concat_of_refused hopen]
    exact h.total_eq hmode
  complaints_eq := by
    rw [FileSystem.complaints, FileSystem.refusals_concat_of_refused hopen, List.map_append,
      List.reverse_append, ← FileSystem.complaints, ← h.complaints_eq]
    rfl

/-- A file that can be opened adds its rows and its lines and nothing else. -/
theorem addRows {next : Session} (h : Reached files device mode named s)
    (hopen : Reader.openFile files file = .ok r)
    (htakes : s.output.Takes (terminated (fileRows mode file (files.linesOf file)))
      (.ok next.output))
    (htotal : mode ≠ .numbered →
      next.total = s.total + UInt64.ofNat (files.linesOf file).length)
    (hcomplaints : next.complaints = s.complaints) :
    Reached files device mode (named ++ [file]) next := by
  cases htakes with
  | taken device_eq contents_eq =>
      refine ⟨device_eq.trans h.device_eq, ?_, ?_, ?_⟩
      · rw [contents_eq, h.contents_eq, FileSystem.terminated_rows_concat_of_openFile hopen]
      · intro hmode
        rw [htotal hmode, h.total_eq hmode, ← UInt64.ofNat_add, FileSystem.lineTotal,
          FileSystem.lineTotal, FileSystem.opened_concat_of_openFile hopen]
        simp
      · rw [hcomplaints, FileSystem.complaints, FileSystem.refusals_concat_of_openFile hopen]
        exact h.complaints_eq

/-- A file that the device refuses to show breaks the run off. -/
theorem refuse {e : IoError} (h : Reached files device mode named s)
    (hrefused : s.output.device.accept = .error e) :
    Visits files device mode (named ++ [file]) (.error (s.breakOff (refusedText mode file e))) := by
  rw [breakOff, h.complaints_eq]
  exact Visits.broken rfl (h.device_eq ▸ hrefused)

/-- A file that can be opened is shown, or the device refuses it. -/
theorem showFile {settings : Settings} (h : Reached files device settings.mode named s)
    (opts : Options) (hopen : Reader.openFile files file = .ok r) :
    Visits files device settings.mode (named ++ [file]) (s.showFile settings opts file r) := by
  rw [s.showFile_eq opts hopen]
  obtain ⟨output, hwrite, htakes⟩ | ⟨e, hwrite, hrefused⟩ :=
    (s.output.writeAll_takes
      (filePieces settings.mode file (files.linesOf file))).ok_or_refused
  · rw [flatten_filePieces] at htakes
    rw [hwrite]
    refine Visits.through (h.addRows hopen htakes (fun hmode => ?_) rfl)
    exact congrArg (fun count => s.total + UInt64.ofNat count) (addend_of_ne hmode _)
  · rw [hwrite]
    exact h.refuse hrefused

/-- **One more file.** -/
theorem visitFile {settings : Settings} (h : Reached files device settings.mode named s)
    (opts : Options) (file : Path) :
    Visits files device settings.mode (named ++ [file])
      (s.visitFile files settings opts file) := by
  unfold Session.visitFile
  split
  · next e hopen => exact Visits.through (h.complain hopen)
  · next r hopen => exact h.showFile opts hopen

/-- **Many more files.**  The induction is on these files; the ones before them have been
visited. -/
theorem visitFiles {settings : Settings} (h : Reached files device settings.mode named s)
    (opts : Options) (more : List Path) :
    Visits files device settings.mode (named ++ more)
      (more.foldlM (Session.visitFile files settings opts) s) := by
  induction more generalizing named s with
  | nil =>
      rw [List.append_nil]
      exact Visits.through h
  | cons file more ih =>
      have hfirst := h.visitFile opts file
      rw [List.foldlM_cons]
      cases hvisit : s.visitFile files settings opts file with
      | ok next =>
          rw [hvisit] at hfirst
          cases hfirst with
          | through reached =>
              have hmore := ih reached
              rwa [List.append_assoc] at hmore
      | error b =>
          rw [hvisit] at hfirst
          cases hfirst with
          | @broken front back file' e split refused =>
              have hsplit : named ++ file :: more = front ++ file' :: (back ++ more) := by
                calc
                  named ++ file :: more = named ++ [file] ++ more := by simp
                  _ = front ++ file' :: (back ++ more) := by rw [split]; simp
              exact Visits.broken hsplit refused

/-- The summary shows the sum where it is wanted. -/
theorem summaryPieces_eq (h : Reached files device mode named s) (number : Nat) :
    summaryPieces mode number s.total.toNat =
      summaryPieces mode number (files.lineSum named) := by
  have hsum : mode ≠ .numbered → s.total.toNat = files.lineSum named := by
    intro hmode
    rw [h.total_eq hmode, UInt64.toNat_ofNat', FileSystem.lineSum]
  cases mode with
  | numbered => rfl
  | counts => rw [hsum (by decide)]
  | total => rw [hsum (by decide)]

/-- The summary is written behind the rows of all files, unless the device refuses. -/
theorem writeSummary {settings : Settings}
    (h : Reached files device settings.mode settings.files s) :
    (∃ output, s.output.writeAll (summaryPieces settings.mode settings.files.length s.total.toNat) =
        .ok output ∧ output.device = device ∧
      output.contents = terminated (files.rows settings.mode settings.files ++
        summaryRows settings.mode settings.files.length (files.lineSum settings.files))) ∨
    ∃ e, s.output.writeAll (summaryPieces settings.mode settings.files.length s.total.toNat) =
        .error e ∧ device.accept = .error e := by
  rw [h.summaryPieces_eq]
  obtain ⟨output, hwrite, htakes⟩ | ⟨e, hwrite, hrefused⟩ :=
    (s.output.writeAll_takes (summaryPieces settings.mode settings.files.length
      (files.lineSum settings.files))).ok_or_refused
  · cases htakes with
    | taken device_eq contents_eq =>
        refine Or.inl ⟨output, hwrite, device_eq.trans h.device_eq, ?_⟩
        rw [contents_eq, h.contents_eq, flatten_summaryPieces, terminated_append]
  · exact Or.inr ⟨e, hwrite, h.device_eq ▸ hrefused⟩

/-- **The end of a run** adds the summary, unless the device refuses. -/
theorem close {settings : Settings} (h : Reached files device settings.mode settings.files s) :
    (∃ last, s.close settings = .ok last ∧ last.complaints = s.complaints ∧
      last.output.contents = terminated (files.rows settings.mode settings.files ++
        summaryRows settings.mode settings.files.length (files.lineSum settings.files))) ∨
    ∃ e, s.close settings = .error (s.breakOff e.display) ∧ device.accept = .error e := by
  rw [s.close_eq]
  obtain ⟨output, hwrite, hdevice, hcontents⟩ | ⟨e, hwrite, hrefused⟩ := h.writeSummary
  · rw [hwrite]
    obtain ⟨flushed, hflush, hflushed⟩ | ⟨e, hflush, hrefused⟩ :=
      output.flush_takes.ok_or_refused
    · cases hflushed with
      | taken _ flushed_eq =>
          refine Or.inl ⟨{ s with output := flushed }, by simp only [hflush], rfl, ?_⟩
          rw [flushed_eq, List.append_nil, hcontents]
    · exact Or.inr ⟨e, by simp only [hflush], hdevice ▸ hrefused⟩
  · exact Or.inr ⟨e, by simp only [hwrite], hrefused⟩

end Reached

/-- **All files**, on any device. -/
theorem visits (files : FileSystem) (device : Device) (settings : Settings) (opts : Options) :
    Visits files device settings.mode settings.files
      (settings.files.foldlM (visitFile files settings opts) (start device)) :=
  (Reached.start files device settings.mode).visitFiles opts settings.files

end Session

end Linewise
