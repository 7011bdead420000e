import Linewise.Fault.Linux
import Linewise.Proofs.ScanCursor
import Linewise.Reader.Calls

/-!
# The states of a reader

A reader keeps its cursor and its mapping apart, and every call has to move both.  Yet
there are only two kinds of states: a scan under way over the whole file, with its
cursor at a cut, or nothing at all, no cursor and no mapping.

All calls that move the scan do the same thing: they run it as a scanner would and
store where it stopped.  So one lemma on `store` keeps the two fields in step, whether
the call took a line, came to the end, or was stopped by an error.  A visitor that
aborts is the exception, and there nothing is stored.

* `Reader.Sound` — the two kinds of states; `Reader.of_openFile` — a reader that has been
  opened is in one of them;
* `Reader.Sound.store` — storing leads to such a state again, from which the scan goes
  on where it stopped;
* `Reader.Sound.getline_eq_store` — a request for a line is nothing else, though it tests
  for the end by itself;
* `Reader.Sound.serve`, `Reader.Sound.eof_serve` — one call leads from such a state to such
  a state, and not back from the end;
* `cursor_and_mapping_agree` — **the state of a reader after any calls.**
-/

namespace Linewise

namespace Reader

variable {π : Type} {content : Bytes} {r : Reader}

/-- A reader of a file with the given content is reading it or has ended. -/
inductive Sound (content : Bytes) : Reader → Prop
  /-- The whole file is mapped, and the scan stands between two lines. -/
  | reading {path : Path} {offset : Nat} (nonempty : content ≠ [])
      (cut : IsCut content offset) : Sound content ⟨⟨path, some content⟩, some offset⟩
  | ended {path : Path} : Sound content ⟨⟨path, none⟩, none⟩

/-- The reader of a whole file is about to read it. -/
theorem of_whole (path : Path) (content : Bytes) :
    Sound content (ofSource (.whole path content)) ∧
      (ofSource (.whole path content)).scan = Scanner.ofBytes content := by
  cases content with
  | nil => exact ⟨Sound.ended, rfl⟩
  | cons b bs => exact ⟨Sound.reading (List.cons_ne_nil b bs) (Or.inl rfl), rfl⟩

section

variable [Platform] {files : FileSystem} {path : Path}

/-- **Which paths give a reader, and which reader**: those that give a source, and the reader
before its first line. -/
theorem openFile_eq_ok_iff :
    openFile files path = .ok r ↔ ∃ content, files.Holds path content ∧
      content.length < addressSpace ∧ r = ofSource (.whole path content) := by
  rw [openFile]
  constructor
  · intro hopen
    cases hsource : Source.openFile files path with
    | error e =>
        rw [hsource] at hopen
        cases hopen
    | ok source =>
        rw [hsource] at hopen
        cases hopen
        obtain ⟨content, hfile, hsize, rfl⟩ := Source.openFile_eq_ok_iff.mp hsource
        exact ⟨content, hfile, hsize, rfl⟩
  · rintro ⟨content, hfile, hsize, rfl⟩
    rw [Source.openFile_eq_ok_iff.mpr ⟨content, hfile, hsize, rfl⟩]
    rfl

/-- A regular file is opened if its bytes have addresses. -/
theorem exists_of_openFile (hfile : files.Holds path content)
    (hsize : content.length < addressSpace) : ∃ r, openFile files path = .ok r :=
  ⟨_, openFile_eq_ok_iff.mpr ⟨content, hfile, hsize, rfl⟩⟩

/-- **An open reader** is about to read the whole file. -/
theorem of_openFile (hfile : files.Holds path content) (hopen : openFile files path = .ok r) :
    Sound content r ∧ r.scan = Scanner.ofBytes content := by
  obtain ⟨other, hother, -, rfl⟩ := openFile_eq_ok_iff.mp hopen
  obtain rfl := hfile.unique hother
  exact of_whole path content

end

namespace Sound

/-- Reading goes on over the content. -/
theorem over_scan (h : Sound content r) : r.scan.Over content := by
  cases h with
  | reading nonempty cut => exact Scanner.Over.reading rfl cut
  | ended => exact Scanner.Over.retired

/-- **Storing keeps cursor and mapping in step.**  A scan over the file, and a retired
one where the reader has ended, is stored so that the reader goes on with it. -/
theorem store (h : Sound content r) {s : Scanner} (hover : s.Over content)
    (hend : r.eof = true → s = .retired) :
    Sound content (r.store s.position) ∧ (r.store s.position).scan = s := by
  cases h with
  | reading nonempty cut =>
      have hresume := hover.resume_position
      cases hover with
      | reading rest later => exact ⟨Sound.reading nonempty later, hresume⟩
      | retired => exact ⟨Sound.ended, rfl⟩
  | ended =>
      rw [hend rfl]
      exact ⟨Sound.ended, rfl⟩

/-- **A request** stores where the scan stopped. -/
theorem getline_eq_store (h : Sound content r) :
    r.getline = (r.scan.getline.1, r.store r.scan.getline.2.position) := by
  cases h with
  | ended => rfl
  | @reading path offset nonempty cut =>
      simp only [Reader.getline]
      split
      · next hle =>
          have hnil : content.drop offset = [] := List.drop_eq_nil_of_le hle
          have hscan : (⟨⟨path, some content⟩, some offset⟩ : Reader).scan =
              .reading offset [] := congrArg (Scanner.reading offset) hnil
          rw [hscan]
          rfl
      · next hlt =>
          -- A line is left, so the request takes it and the cursor is not retired.
          cases hget : (⟨⟨path, some content⟩, some offset⟩ : Reader).scan.getline with
          | mk line t =>
              cases line with
              | none =>
                  have hnil := Scanner.remaining_of_getline_none hget
                  have hle : content.length ≤ offset := List.drop_eq_nil_iff.mp hnil
                  exact absurd hle hlt
              | some line =>
                  obtain ⟨next, hnext⟩ := Scanner.position_of_getline hget
                  simp [hnext, Reader.store]

/-- A request keeps a sound reader sound, and is a request to its scanner. -/
theorem getline (h : Sound content r) :
    Sound content r.getline.2 ∧ r.getline.2.scan = r.scan.getline.2 := by
  rw [h.getline_eq_store]
  refine h.store h.over_scan.getline ?_
  intro hend
  rw [scan_eq_retired_iff.mpr hend]
  rfl

/-- A visit leaves the reader as it was, or where the scan stopped. -/
theorem forEach {σ ε : Type} (h : Sound content r) (visit : Visitor σ ε π) (state : σ) :
    Sound content (r.forEach visit state).2.2 ∧
      ((∀ payload, (r.scan.forEach visit state).1 ≠ .aborted payload) →
        (r.forEach visit state).2.2.scan = (r.scan.forEach visit state).2.2) := by
  have hstored : Sound content (r.store (r.scan.forEach visit state).2.2.position) ∧
      (r.store (r.scan.forEach visit state).2.2.position).scan =
        (r.scan.forEach visit state).2.2 := by
    refine h.store (h.over_scan.forEach visit state) ?_
    intro hend
    rw [scan_eq_retired_iff.mpr hend, Scanner.forEach_retired]
  by_cases habort : ∃ payload, (r.scan.forEach visit state).1 = .aborted payload
  · obtain ⟨payload, hpayload⟩ := habort
    rw [r.forEach_of_aborted visit state hpayload]
    exact ⟨h, fun hcalm => absurd hpayload (hcalm payload)⟩
  · have hcalm : ∀ payload, (r.scan.forEach visit state).1 ≠ .aborted payload :=
      fun payload hpayload => habort ⟨payload, hpayload⟩
    rw [r.forEach_eq_store visit state hcalm]
    exact ⟨hstored.1, fun _ => hstored.2⟩

/-- **One call** leads from such a state to such a state. -/
theorem serve (h : Sound content r) (call : Call π) : Sound content (r.serve call).2 := by
  cases call with
  | pull p =>
      cases p with
      | getline => exact h.getline.1
      | forEach visit state => exact (h.forEach visit state).1
  | view v => exact h
  | unmap => exact Sound.ended

/-- Any calls keep a sound reader sound. -/
theorem run (h : Sound content r) (calls : List (Call π)) : Sound content (r.run calls) :=
  run_invariant (fun _ call hr => hr.serve call) h calls

/-- **The end is final**: no call takes a reader back from it. -/
theorem eof_serve (h : Sound content r) (hend : r.eof = true) (call : Call π) :
    (r.serve call).2.eof = true := by
  have hscan := scan_eq_retired_iff.mpr hend
  cases call with
  | pull p =>
      cases p with
      | getline =>
          have hnext : r.getline.2.scan = .retired := by
            rw [h.getline.2, hscan]
            rfl
          exact scan_eq_retired_iff.mp hnext
      | forEach visit state =>
          have hcalm : ∀ payload, (r.scan.forEach visit state).1 ≠ .aborted payload := by
            rw [hscan, Scanner.forEach_retired]
            intro payload hpayload
            cases hpayload
          have hnext : (r.forEach visit state).2.2.scan = .retired := by
            rw [(h.forEach visit state).2 hcalm, hscan, Scanner.forEach_retired]
          exact scan_eq_retired_iff.mp hnext
  | view v => exact hend
  | unmap => rfl

/-- The end is found once and for all. -/
theorem eof_run (h : Sound content r) (hend : r.eof = true) (calls : List (Call π)) :
    (r.run calls).eof = true := by
  have hboth : Sound content (r.run calls) ∧ (r.run calls).eof = true :=
    run_invariant (motive := fun r => Sound content r ∧ r.eof = true)
      (fun _ call hr => ⟨hr.1.serve call, hr.1.eof_serve hr.2 call⟩) ⟨h, hend⟩ calls
  exact hboth.2

/-- The end has been found exactly if there is no mapping, and exactly if there is no byte to
show. -/
theorem eof_eq (h : Sound content r) : r.eof = !r.isMapped ∧ r.eof = r.isEmpty := by
  cases h with
  | @reading path offset nonempty cut =>
      cases content with
      | nil => exact absurd rfl nonempty
      | cons b bs => exact ⟨rfl, rfl⟩
  | ended => exact ⟨rfl, rfl⟩

/-- A reader that has not ended shows the whole file and stands at a cut of it. -/
theorem cut_of_not_eof (h : Sound content r) (hgoing : r.eof = false) :
    r.bytes = content ∧ ∃ offset, r.cursor = some offset ∧ IsCut content offset := by
  cases h with
  | @reading path offset nonempty cut => exact ⟨rfl, offset, rfl, cut⟩
  | ended => cases hgoing

end Sound

end Reader

/-- **The state of a reader after any calls.**  A regular file whose bytes have addresses
can be opened.  After any calls the reader has ended exactly if it has no mapping, and
exactly if it shows no bytes.  Until then it shows the whole file, and its cursor is at an
offset that cuts no line.  Once it has ended, it has ended for good. -/
theorem cursor_and_mapping_agree [Platform] {π : Type} {files : FileSystem} {path : Path}
    {content : Bytes} (hfile : files.Holds path content) :
    (content.length < addressSpace → ∃ r, Reader.openFile files path = .ok r) ∧
      ∀ r, Reader.openFile files path = .ok r → ∀ calls : List (Call π),
        let now := r.run calls
        now.eof = !now.isMapped ∧
          now.eof = now.isEmpty ∧
          now.isEmpty = (now.length == 0) ∧
          (now.eof = false → now.bytes = content ∧
            ∃ offset, now.cursor = some offset ∧ offset ≤ now.length ∧
              (offset = 0 ∨ offset = now.length ∨ BehindNewline content offset)) ∧
          (now.eof = true → ∀ more : List (Call π), (r.run (calls ++ more)).eof = true) := by
  refine ⟨Reader.exists_of_openFile hfile, ?_⟩
  intro r hopen calls now
  have hsound : Reader.Sound content now := (Reader.of_openFile hfile hopen).1.run calls
  obtain ⟨hmapped, hempty⟩ := hsound.eof_eq
  refine ⟨hmapped, hempty, rfl, ?_, ?_⟩
  · intro hgoing
    obtain ⟨hbytes, offset, hcursor, hcut⟩ := hsound.cut_of_not_eof hgoing
    have hlength : now.length = content.length := congrArg List.length hbytes
    rw [hlength]
    exact ⟨hbytes, offset, hcursor, hcut.le_length, hcut⟩
  · intro hend more
    rw [Reader.run_append]
    exact hsound.eof_run hend more

/-- A visitor that fails on the last line leaves the reader at the end of the file and
still mapped, and the next request for a line ends it. -/
theorem cursor_and_mapping_agree_at_the_last_line :
    let content : Bytes := [97, 10, 98]
    let files : FileSystem := fun _ => .ok (.regular content)
    let r : Reader := ⟨⟨[120], some content⟩, some 0⟩
    let fail : Visitor Unit Nat Nat := fun _ line => (.fail line.length, ())
    let abort : Visitor Unit Nat Nat := fun _ line => (.abort line.length, ())
    let calls : List (Call Nat) := [.pull (.forEach abort ()), .pull .getline,
      .view (.countLines Options.default), .pull (.forEach fail ())]
    files.Holds [120] content ∧
      content.length < addressSpace ∧
      Reader.openFile files [120] = .ok r ∧
      (r.run calls).eof = false ∧
      (r.run calls).isMapped = true ∧
      (r.run calls).cursor = some 3 ∧
      (r.run calls).bytes = content ∧
      (r.run (calls ++ [.pull .getline] ++ [.pull .getline])).eof = true := by
  intro content files r fail abort calls
  have hfile : files.Holds [120] content := FileSystem.holds_of_regular rfl
  have hopen : Reader.openFile files [120] = .ok r := rfl
  obtain ⟨-, hstates⟩ := cursor_and_mapping_agree (π := Nat) hfile
  have hgoing : (r.run calls).eof = false := by decide +kernel
  have hcursor : (r.run calls).cursor = some 3 := by decide +kernel
  have hend : (r.run (calls ++ [.pull .getline])).eof = true := by decide +kernel
  obtain ⟨hmapped, -, -, hwhole, -⟩ := hstates r hopen calls
  obtain ⟨-, -, -, -, hfinal⟩ := hstates r hopen (calls ++ [.pull .getline])
  refine ⟨hfile, by decide, hopen, hgoing, ?_, hcursor, (hwhole hgoing).1, ?_⟩
  · simpa [hgoing] using hmapped
  · exact hfinal hend [.pull .getline]

end Linewise
