import Linewise.Proofs.ReportRows

/-!
# Settings that do not show

How many threads share a file, from which size on they do, and whether a file is scanned or
counted in pieces: none of this shows in the answer to a command line.  Two runs that differ
in nothing else take the same step at every file, on any device, because the only place where
they could part is the count of a file that has just been opened.

* `Session.visitFile_congr` — one file; `report_congr` — the whole run;
* `respond_ignores_tuning` — **two command lines that ask for the same files in the same way
  are answered alike**, and with the numbers of lines that a scanner hands out.
-/

namespace Linewise

section

variable [Platform] {files : FileSystem} {s t : Settings}

namespace Session

/-- A file that has just been opened is shown alike. -/
theorem showFile_congr {file : Path} {r : Reader} (hopen : Reader.openFile files file = .ok r)
    (hmode : s.mode = t.mode) (opts others : Options) (session : Session) :
    session.showFile s opts file r = session.showFile t others file r := by
  unfold showFile
  rw [countFile_of_openFile hopen opts s.sequential,
    countFile_of_openFile hopen others t.sequential, hmode]

/-- **One file** is a step that both runs take. -/
theorem visitFile_congr (hmode : s.mode = t.mode) (opts others : Options) :
    visitFile files s opts = visitFile files t others := by
  funext session file
  unfold visitFile
  split
  · rfl
  · next r hopen => exact showFile_congr hopen hmode opts others session

/-- **The end of a run** is a step that both runs take. -/
theorem close_congr (hfiles : s.files = t.files) (hmode : s.mode = t.mode)
    (session : Session) : session.close s = session.close t := by
  unfold close
  rw [hfiles, hmode]

end Session

/-- **The whole run**, on any device. -/
theorem report_congr (hfiles : s.files = t.files) (hmode : s.mode = t.mode)
    (hs : Options.minThreads ≤ s.threads ∧ s.threads ≤ Options.maxThreads)
    (ht : Options.minThreads ≤ t.threads ∧ t.threads ≤ Options.maxThreads) (device : Device) :
    report files device s = report files device t := by
  obtain ⟨opts, hopts⟩ := Options.exists_new hs.1 hs.2 s.minSize
  obtain ⟨others, hothers⟩ := Options.exists_new ht.1 ht.2 t.minSize
  have hrun : runFiles files device s opts = runFiles files device t others := by
    unfold runFiles
    rw [hfiles, Session.visitFile_congr hmode opts others]
    split
    · rfl
    · next session _ => exact session.close_congr hfiles hmode
  unfold report
  rw [hopts, hothers]
  simp only [hrun]

end

/-- **The settings of threads, sizes and scans do not show.**  Let two command lines ask for
the same files in the same way.  Then they are answered alike on any device, in output, in
complaints and in the exit code, whatever numbers of threads in the range and sizes they give
and whether they ask for a scan.  A file that can be opened is a regular file.  The number shown
for it is that of the lines that a scanner hands out of what it holds, and the sum is over all
of these files.  The sum is kept in sixty-four bits, so it is shown as it is if it fits. -/
theorem respond_ignores_tuning [Platform] (files : FileSystem) {one other : List Bytes}
    {s t : Settings} (hone : Request.ofArguments one = .run s)
    (hother : Request.ofArguments other = .run t)
    (hfiles : s.files = t.files) (hmode : s.mode = t.mode)
    (hs : Options.minThreads ≤ s.threads ∧ s.threads ≤ Options.maxThreads)
    (ht : Options.minThreads ≤ t.threads ∧ t.threads ≤ Options.maxThreads) :
    let stdout := (respond files .writable one).stdout
    let opened := s.files.filter files.opens
    let count : Path → Nat := fun file => (Scanner.ofBytes (files.content file)).rest.length
    let total := (opened.map count).sum
    let sum := total % 2 ^ 64
    (∀ device, respond files device one = respond files device other) ∧
      (∀ file ∈ opened, files.Holds file (files.content file) ∧ count file < 2 ^ 64) ∧
      (s.mode = .counts → stdout =
        (opened.flatMap fun file => decimal (count file) ++ [blank] ++ file ++ [newline]) ++
          if 1 < s.files.length then decimal sum ++ Utf8.encode " total" ++ [newline]
          else []) ∧
      (s.mode = .total → stdout = decimal sum ++ [newline]) ∧
      (total < 2 ^ 64 → sum = total) := by
  intro stdout opened count total sum
  have hstdout : stdout = (report files .writable s).stdout := by
    rw [← respond_of_run hone files .writable]
  rw [hstdout]
  refine ⟨?_, ?_, stdout_of_counts files hs.1 hs.2, stdout_of_total files hs.1 hs.2,
    files.lineSum_eq_lineTotal⟩
  · intro device
    rw [respond_of_run hone, respond_of_run hother]
    exact report_congr hfiles hmode hs ht device
  · intro file hfile
    exact FileSystem.holds_of_mem_opened hfile

/-- Eight threads that share every file, and a scan by none but the caller, over a file that
is named twice, an empty one, and a name that leads nowhere. -/
theorem respond_ignores_tuning_of_eight_threads :
    let files : FileSystem := fun file =>
      if file = [97] then .ok (.regular [120, 10, 10, 121])
      else if file = [101] then .ok (.regular [])
      else .error .noSuchFile
    let one := ["-j8", "--min-size=0", "a", "m", "e", "a"].map Utf8.encode
    let other := ["-s", "--", "a", "m", "e", "a"].map Utf8.encode
    let s : Settings := ⟨8, 0, false, .counts, [[97], [109], [101], [97]]⟩
    let t : Settings := ⟨2, 1048576, true, .counts, [[97], [109], [101], [97]]⟩
    Request.ofArguments one = .run s ∧
      Request.ofArguments other = .run t ∧
      s.files = t.files ∧ s.mode = t.mode ∧
      (Options.minThreads ≤ s.threads ∧ s.threads ≤ Options.maxThreads) ∧
      (Options.minThreads ≤ t.threads ∧ t.threads ≤ Options.maxThreads) ∧
      (∀ device, respond files device one = respond files device other) ∧
      (respond files .writable one).stdout = Utf8.encode "3 a\n0 e\n3 a\n6 total\n" := by
  intro files one other s t
  have hone : Request.ofArguments one = .run s := by decide
  have hother : Request.ofArguments other = .run t := by decide
  have hs : Options.minThreads ≤ s.threads ∧ s.threads ≤ Options.maxThreads := by decide
  have ht : Options.minThreads ≤ t.threads ∧ t.threads ≤ Options.maxThreads := by decide
  have hopened : s.files.filter files.opens = [[97], [101], [97]] := by decide
  have hcontent : files.content [97] = [120, 10, 10, 121] := rfl
  have hlines : (Scanner.ofBytes (files.content [97])).rest = [[120], [], [121]] := by
    rw [hcontent]
    decide +kernel
  have hempty : files.content [101] = [] := rfl
  have hnone : (Scanner.ofBytes (files.content [101])).rest = [] := by
    rw [hempty]
    decide +kernel
  obtain ⟨hsame, -, hstdout, -⟩ := respond_ignores_tuning files hone hother rfl rfl hs ht
  refine ⟨hone, hother, rfl, rfl, hs, ht, hsame, ?_⟩
  rw [hstdout rfl, hopened]
  simp only [List.map_cons, List.flatMap_cons, hlines, hnone]
  decide +kernel

end Linewise
