import Linewise.Fault.Linux
import Linewise.Proofs.SessionVisits

/-!
# What a report shows

A writable device is no reason to break a run off, so all files are visited, and the report
shows what the session has come to after the last of them.  In each of the three modes this is
said by the files that can be opened and the numbers of their lines.

* `report_writable` — **a report is the rows of the files that can be opened**, with a
  complaint for each of the others;
* `stdout_of_numbered`, `stdout_of_counts`, `stdout_of_total` — the rows of each mode;
* `report_passes_over_refused_files` — **files that cannot be opened are passed over.**
-/

namespace Linewise

/-- A number of threads that is in range gives options. -/
theorem Options.exists_new {threads : Nat} (hlow : minThreads ≤ threads)
    (hhigh : threads ≤ maxThreads) (minSize : Nat) : ∃ opts, new threads minSize = .ok opts := by
  have hrange : 2 ≤ threads ∧ threads ≤ 8 := ⟨hlow, hhigh⟩
  simp [new, withThreads, hrange, Except.map]

/-- **A report on a writable device** is the rows of the files that can be opened and the
summary, with a complaint for each of the other files, and it fails exactly if there is
one. -/
theorem report_writable [Platform] (files : FileSystem) (settings : Settings)
    (hlow : Options.minThreads ≤ settings.threads)
    (hhigh : settings.threads ≤ Options.maxThreads) :
    report files .writable settings =
      { exitCode := if files.opened settings.files = settings.files then 0 else 1
        stdout := terminated (files.rows settings.mode settings.files ++
          summaryRows settings.mode settings.files.length (files.lineSum settings.files))
        stderr := complaintText (files.complaints settings.files) } := by
  obtain ⟨opts, hopts⟩ := Options.exists_new hlow hhigh settings.minSize
  obtain ⟨s, hvisits, hreached⟩ :=
    (Session.visits files .writable settings opts).exists_of_writable
  obtain ⟨last, hclose, hcomplaints, hcontents⟩ | ⟨e, -, hrefused⟩ := hreached.close
  · rw [hreached.complaints_eq] at hcomplaints
    simp only [report, hopts, runFiles, hvisits, hclose, hcontents, hcomplaints,
      FileSystem.isEmpty_complaints_iff]
  · cases hrefused

/-- Complaints are shown in the order in which the files are named. -/
theorem complaintText_complaints [Platform] (files : FileSystem) (named : List Path) :
    complaintText (files.complaints named) = String.join
      ((named.filterMap files.refusal?).map fun e => "flines: " ++ e.message ++ "\n") := by
  rw [complaintText, FileSystem.complaints, List.reverse_reverse, List.map_map]
  rfl

/-- A command line that asks for a run is answered by it. -/
theorem respond_of_run [Platform] {arguments : List Bytes} {settings : Settings}
    (hrun : Request.ofArguments arguments = .run settings) (files : FileSystem)
    (device : Device) : respond files device arguments = report files device settings := by
  rw [respond, hrun]

section

variable [Platform] (files : FileSystem) {settings : Settings}
  (hlow : Options.minThreads ≤ settings.threads) (hhigh : settings.threads ≤ Options.maxThreads)

include hlow hhigh

/-- A file behind its numbers is shown as it would be without the others. -/
theorem stdout_of_numbered (hmode : settings.mode = .numbered) :
    (report files .writable settings).stdout = (files.opened settings.files).flatMap fun file =>
      (report files .writable { settings with files := [file] }).stdout := by
  have halone : ∀ file ∈ files.opened settings.files,
      (report files .writable { settings with files := [file] }).stdout =
        terminated (fileRows .numbered file (files.linesOf file)) := by
    intro file hfile
    have hopens : files.opened [file] = [file] := by
      simpa [FileSystem.opened] using (List.mem_filter.mp hfile).2
    rw [report_writable files { settings with files := [file] } hlow hhigh]
    simp [hmode, FileSystem.rows, hopens, summaryRows]
  rw [List.flatMap_def, List.map_congr_left halone, ← List.flatMap_def,
    report_writable files settings hlow hhigh, hmode]
  simp [summaryRows, FileSystem.rows, terminated_flatMap]

/-- Each file is shown by its count and its name, and several files also by the sum. -/
theorem stdout_of_counts (hmode : settings.mode = .counts) :
    (report files .writable settings).stdout =
      ((files.opened settings.files).flatMap fun file =>
        decimal (files.linesOf file).length ++ [blank] ++ file ++ [newline]) ++
        if 1 < settings.files.length then
          decimal (files.lineSum settings.files) ++ Utf8.encode " total" ++ [newline]
        else [] := by
  have hrow : ∀ file, terminated (fileRows .counts file (files.linesOf file)) =
      decimal (files.linesOf file).length ++ [blank] ++ file ++ [newline] := by
    intro file
    simp [fileRows, countRow, terminated]
  have hsummary : ∀ total, terminated (summaryRows .counts settings.files.length total) =
      if 1 < settings.files.length then decimal total ++ Utf8.encode " total" ++ [newline]
      else [] := by
    intro total
    rw [summaryRows]
    split
    · simp [grandTotalRow, terminated]
    · rfl
  simp only [report_writable files settings hlow hhigh, hmode, FileSystem.rows, terminated_append,
    terminated_flatMap, hrow, hsummary]

/-- All files are shown by the sum alone. -/
theorem stdout_of_total (hmode : settings.mode = .total) :
    (report files .writable settings).stdout =
      decimal (files.lineSum settings.files) ++ [newline] := by
  rw [report_writable files settings hlow hhigh, hmode, FileSystem.rows, terminated_append,
    terminated_flatMap]
  simp [fileRows, summaryRows, terminated]

end

/-- A file that can be opened holds what is shown of it, and its lines are few enough to be
counted in sixty-four bits. -/
theorem FileSystem.holds_of_mem_opened [Platform] {files : FileSystem} {named : List Path}
    {file : Path} (h : file ∈ files.opened named) :
    files.Holds file (files.content file) ∧ (files.linesOf file).length < 2 ^ 64 := by
  have hopens := (List.mem_filter.mp h).2
  unfold opens at hopens
  split at hopens
  · next r hopen => exact ⟨(holds_of_openFile hopen).1, length_linesOf_lt hopen⟩
  · cases hopens

/-- **Files that cannot be opened are passed over.**  They are complained about in the order
in which they are named, and the run fails if there is one.  What is shown of the others does
not depend on them: a file behind its numbers is shown as if it were the only one, and counts
and sums are those of the files that can be opened.  Only whether a sum is shown at all
depends on how many files are named.  The sum is kept in sixty-four bits, so it is shown as it
is if it fits.  A file that can be opened is a regular file, and its lines are those of what it
holds. -/
theorem report_passes_over_refused_files [Platform] (files : FileSystem) {arguments : List Bytes}
    {settings : Settings} (hrun : Request.ofArguments arguments = .run settings)
    (hlow : Options.minThreads ≤ settings.threads)
    (hhigh : settings.threads ≤ Options.maxThreads) :
    let answer := respond files .writable arguments
    let named := settings.files
    let opened := named.filter files.opens
    let total := (opened.map fun file => (files.linesOf file).length).sum
    let sum := total % 2 ^ 64
    answer.exitCode = (if opened = named then 0 else 1) ∧
      answer.stderr = String.join
        ((named.filterMap files.refusal?).map fun e => "flines: " ++ e.message ++ "\n") ∧
      (settings.mode = .numbered → answer.stdout = opened.flatMap fun file =>
        (report files .writable { settings with files := [file] }).stdout) ∧
      (settings.mode = .total → answer.stdout = decimal sum ++ [newline]) ∧
      (settings.mode = .counts → answer.stdout =
        (opened.flatMap fun file =>
          decimal (files.linesOf file).length ++ [blank] ++ file ++ [newline]) ++
          if 1 < named.length then decimal sum ++ Utf8.encode " total" ++ [newline]
          else []) ∧
      (total < 2 ^ 64 → sum = total) ∧
      ∀ file ∈ opened, files.Holds file (files.content file) ∧
        (files.linesOf file).length < 2 ^ 64 := by
  intro answer named opened total sum
  have hanswer : answer = report files .writable settings := respond_of_run hrun files .writable
  rw [hanswer]
  refine ⟨?_, ?_, stdout_of_numbered files hlow hhigh, stdout_of_total files hlow hhigh,
    stdout_of_counts files hlow hhigh, files.lineSum_eq_lineTotal, ?_⟩
  · rw [report_writable files settings hlow hhigh]
    rfl
  · rw [report_writable files settings hlow hhigh, complaintText_complaints]
  · intro file hfile
    exact FileSystem.holds_of_mem_opened hfile

/-- One file is named twice, and between and behind its two places there is a name that leads
nowhere, one that leads to a directory, and one that leads to a file that cannot be mapped. -/
theorem report_passes_over_a_missing_file_and_a_directory :
    let files : FileSystem := fun file =>
      if file = [97] then .ok (.regular [120, 10, 121])
      else if file = [100] then .ok (.refusing ⟨false, 0⟩ .noSuchDevice)
      else if file = [115] then .ok (.refusing ⟨true, 4096⟩ .noSuchDevice)
      else .error .noSuchFile
    let arguments := ["-j8", "a", "m", "a", "d", "s"].map Utf8.encode
    let settings : Settings :=
      ⟨8, 1048576, false, .counts, [[97], [109], [97], [100], [115]]⟩
    Request.ofArguments arguments = .run settings ∧
      Options.minThreads ≤ settings.threads ∧ settings.threads ≤ Options.maxThreads ∧
      (respond files .writable arguments).exitCode = 1 ∧
      (respond files .writable arguments).stderr =
        "flines: m: No such file or directory\nflines: d: not a regular file\n" ++
          "flines: s: cannot map file: No such device\n" ∧
      (respond files .writable arguments).stdout = Utf8.encode "2 a\n2 a\n4 total\n" := by
  intro files arguments settings
  have hrun : Request.ofArguments arguments = .run settings := by decide
  have hlow : Options.minThreads ≤ settings.threads := by decide
  have hhigh : settings.threads ≤ Options.maxThreads := by decide
  have hopened : settings.files.filter files.opens = [[97], [97]] := by decide +kernel
  have hrefused : settings.files.filterMap files.refusal? =
      [.missing [109] .noSuchFile, .notRegular [100], .unmapped [115] .noSuchDevice] := by
    decide +kernel
  have hcontent : files.content [97] = [120, 10, 121] := rfl
  have hlines : files.linesOf [97] = [[120], [121]] := by
    rw [FileSystem.linesOf, hcontent]
    decide +kernel
  obtain ⟨hexit, hstderr, -, -, hstdout, -⟩ :=
    report_passes_over_refused_files files hrun hlow hhigh
  refine ⟨hrun, hlow, hhigh, ?_, ?_, ?_⟩
  · rw [hexit, hopened]
    decide
  · rw [hstderr, hrefused]
    decide +kernel
  · rw [hstdout rfl, hopened]
    simp only [List.map_cons, List.flatMap_cons, hlines]
    decide +kernel

end Linewise
