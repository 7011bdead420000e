import Linewise.Proofs.Decomposition
import Linewise.Proofs.ReportRows

/-!
# Numbered output reads back

The rows of numbered lines hold no newline, so a scanner that goes over the output hands them
out as they were written: file by file, and in each file from number one.  Behind the first tab
of each row is the line, so the output holds all lines of all files, whatever bytes they are
made of.

* `stdout_of_numbered_eq` — the output is the rows, each of them ended;
* `rows_plain` — no newline in any of them;
* `numbered_output_reads_back` — **the rows and the lines can be had from the output.**
-/

namespace Linewise

/-- Ended rows end with a newline, unless there are none. -/
theorem terminated_eq_nil_or_getLast? (ls : List Bytes) :
    terminated ls = [] ∨ (terminated ls).getLast? = some newline := by
  rcases List.eq_nil_or_concat ls with rfl | ⟨front, last, rfl⟩
  · exact Or.inl rfl
  · right
    rw [List.concat_eq_append, terminated_concat]
    simp

namespace FileSystem

variable [Platform] (files : FileSystem) (named : List Path)

/-- **No row of a numbered line holds a newline.** -/
theorem rows_plain : ∀ row ∈ files.rows .numbered named, newline ∉ row := by
  intro row hrow
  obtain ⟨file, -, hfile⟩ := List.mem_flatMap.mp hrow
  refine newline_not_mem_of_mem_numberedRows ?_ row hfile
  exact (Decomposes.of_scanner (Scanner.ofBytes (files.content file))).plain

/-- What stands behind the first tab of each row is a line. -/
theorem map_afterTab_rows :
    (files.rows .numbered named).map afterTab = (files.opened named).flatMap files.linesOf := by
  rw [rows, List.map_flatMap]
  exact congrArg List.flatten
    (List.map_congr_left fun file _ => map_afterTab_numberedRows (files.linesOf file))

end FileSystem

/-- The output is the rows of the files that can be opened, each of them ended. -/
theorem stdout_of_numbered_eq [Platform] (files : FileSystem) {settings : Settings}
    (hlow : Options.minThreads ≤ settings.threads)
    (hhigh : settings.threads ≤ Options.maxThreads) (hmode : settings.mode = .numbered) :
    (report files .writable settings).stdout =
      terminated (files.rows .numbered settings.files) := by
  rw [report_writable files settings hlow hhigh, hmode, summaryRows, List.append_nil]

/-- **Numbered output reads back.**  A scanner over the output hands out, file by file, one row
for each line of a file that can be opened: the number of the line in its file, in decimal and
filled up with blanks on the left to six bytes if it has fewer, a tab, and the line.  The
digits of a number are read as that number again.  The output is empty or ends with a newline,
and what stands behind the first tab of each row is the lines of the files.  A file that can be
opened is a regular file, and its lines are those of what it holds. -/
theorem numbered_output_reads_back [Platform] (files : FileSystem) {arguments : List Bytes}
    {settings : Settings} (hrun : Request.ofArguments arguments = .run settings)
    (hmode : settings.mode = .numbered) (hlow : Options.minThreads ≤ settings.threads)
    (hhigh : settings.threads ≤ Options.maxThreads) :
    let stdout := (respond files .writable arguments).stdout
    let shown := (Scanner.ofBytes stdout).rest
    let opened := settings.files.filter files.opens
    let linesOf : Path → List Bytes := fun file => (Scanner.ofBytes (files.content file)).rest
    (shown = opened.flatMap fun file => (linesOf file).mapIdx fun i line =>
      List.replicate (6 - (decimal (i + 1)).length) blank ++ decimal (i + 1) ++ tab :: line) ∧
      (∀ n < numberLimit, number? (decimal n) = some n) ∧
      (stdout = [] ∨ stdout.getLast? = some newline) ∧
      shown.map afterTab = opened.flatMap linesOf ∧
      ∀ file ∈ opened, files.Holds file (files.content file) := by
  intro stdout shown opened linesOf
  have hstdout : stdout = terminated (files.rows .numbered settings.files) :=
    (congrArg Report.stdout (respond_of_run hrun files .writable)).trans
      (stdout_of_numbered_eq files hlow hhigh hmode)
  have hshown : shown = files.rows .numbered settings.files := by
    have hread := lines_terminated_append (files.rows_plain settings.files) []
    rw [List.append_nil, lines_nil, List.append_nil] at hread
    rw [← hread, ← hstdout]
    exact Scanner.rest_ofBytes stdout
  refine ⟨hshown, fun n hn => number?_decimal hn, ?_, ?_, ?_⟩
  · rw [hstdout]
    exact terminated_eq_nil_or_getLast? _
  · rw [hshown]
    exact files.map_afterTab_rows settings.files
  · intro file hfile
    exact (FileSystem.holds_of_mem_opened hfile).1

/-- A file with a tab inside a line, a line without bytes and an open tail, named twice, and
between its two places a name that leads nowhere. -/
theorem numbered_output_reads_back_with_tabs :
    let files : FileSystem := fun file =>
      if file = [97] then .ok (.regular [120, 9, 121, 10, 10, 122]) else .error .noSuchFile
    let arguments := ["-n", "a", "m", "a"].map Utf8.encode
    let settings : Settings := ⟨2, 1048576, false, .numbered, [[97], [109], [97]]⟩
    let shown := (Scanner.ofBytes (respond files .writable arguments).stdout).rest
    Request.ofArguments arguments = .run settings ∧
      settings.mode = .numbered ∧
      Options.minThreads ≤ settings.threads ∧ settings.threads ≤ Options.maxThreads ∧
      (9 < numberLimit ∧ number? (decimal 9) = some 9) ∧
      shown = ["     1\tx\ty", "     2\t", "     3\tz", "     1\tx\ty", "     2\t",
        "     3\tz"].map Utf8.encode ∧
      shown.map afterTab = ["x\ty", "", "z", "x\ty", "", "z"].map Utf8.encode := by
  intro files arguments settings shown
  have hrun : Request.ofArguments arguments = .run settings := by decide
  have hlow : Options.minThreads ≤ settings.threads := by decide
  have hhigh : settings.threads ≤ Options.maxThreads := by decide
  have hopened : settings.files.filter files.opens = [[97], [97]] := by decide
  have hcontent : files.content [97] = [120, 9, 121, 10, 10, 122] := rfl
  have hlines : (Scanner.ofBytes (files.content [97])).rest = [[120, 9, 121], [], [122]] := by
    rw [hcontent]
    decide +kernel
  have hlimit : 9 < numberLimit := by decide
  obtain ⟨hshown, hnumber, -, hlast, -⟩ := numbered_output_reads_back files hrun rfl hlow hhigh
  refine ⟨hrun, rfl, hlow, hhigh, ⟨hlimit, hnumber 9 hlimit⟩, ?_, ?_⟩
  · refine hshown.trans ?_
    rw [hopened]
    simp only [List.flatMap_cons, hlines]
    decide +kernel
  · refine hlast.trans ?_
    rw [hopened]
    simp only [List.flatMap_cons, hlines]
    decide +kernel

end Linewise
