import Linewise.Proofs.LineCounts
import Linewise.Proofs.ReaderStates
import Linewise.Report.Rows

/-!
# Files that can be opened

A path gives a reader only if it leads to a regular file whose bytes have addresses, and then
the reader stands before the first line of its content.  So the number of lines of a file that
has just been opened does not depend on how they are counted: by a scan that uses the reader
up, by its newlines, or piece by piece.

* `FileSystem.holds_of_openFile` — only a regular file is opened, and its content is shown;
* `Reader.fresh_of_openFile` — its reader is about to scan this content;
* `countFile_of_openFile` — **however its lines are counted**, their number is that of the
  lines that a scanner hands out; `FileSystem.length_linesOf_lt` bounds it.
-/

namespace Linewise

variable [Platform] {files : FileSystem} {file : Path} {r : Reader}

/-- **The reader of a file** shows its content, and is about to scan it. -/
theorem Reader.fresh_of_openFile (hopen : openFile files file = .ok r) :
    r.bytes = files.content file ∧ r.scan = Scanner.ofBytes (files.content file) := by
  have hshown : files.content file = r.bytes := by
    rw [FileSystem.content, hopen]
  obtain ⟨content, -, -, rfl⟩ := openFile_eq_ok_iff.mp hopen
  have hbytes : (ofSource (.whole file content)).bytes = content :=
    Source.bytes_whole file content
  rw [hshown, hbytes]
  exact ⟨rfl, (of_whole file content).2⟩

/-- **Only a regular file is opened.**  Its content is what is shown of it, and each byte of
it has an address. -/
theorem FileSystem.holds_of_openFile (hopen : Reader.openFile files file = .ok r) :
    files.Holds file (files.content file) ∧
      (files.content file).length < addressSpace := by
  rw [← (Reader.fresh_of_openFile hopen).1]
  obtain ⟨content, hfile, hsize, rfl⟩ := Reader.openFile_eq_ok_iff.mp hopen
  have hbytes : (Reader.ofSource (.whole file content)).bytes = content :=
    Source.bytes_whole file content
  rw [hbytes]
  exact ⟨hfile, hsize⟩

/-- A file has no more lines than an address may name bytes, so a count fits into as many
bits. -/
theorem FileSystem.length_linesOf_lt (hopen : Reader.openFile files file = .ok r) :
    (files.linesOf file).length < addressSpace := by
  rw [linesOf, Scanner.rest_ofBytes]
  exact Nat.lt_of_le_of_lt (length_lines_le _) (holds_of_openFile hopen).2

/-- **However the lines of a file are counted**, by a scan or in pieces, their number is
that of the lines that a scanner hands out. -/
theorem countFile_of_openFile (hopen : Reader.openFile files file = .ok r) (opts : Options)
    (sequential : Bool) : countFile opts sequential r = (files.linesOf file).length := by
  obtain ⟨hbytes, hscan⟩ := Reader.fresh_of_openFile hopen
  rw [FileSystem.linesOf, Scanner.rest_ofBytes]
  cases sequential with
  | false =>
      have hcount := countLines_eq_length_lines r.bytes opts
      rw [hbytes] at hcount
      rw [← hcount, ← hbytes]
      rfl
  | true =>
      have haccept : ∀ (state : Unit) (line : Bytes),
          ((.accept : Reply Empty Empty), ()).1 = .accept := fun _ _ => rfl
      have hdone := (r.forEach_answer (fun (_ : Unit) _ => ((.accept : Reply Empty Empty), ()))
        ()).1
      rw [Scanner.forEach_of_accept haccept, hscan, Scanner.remaining_ofBytes] at hdone
      cases hvisit : r.forEach (fun (_ : Unit) _ => ((.accept : Reply Empty Empty), ())) () with
      | mk outcome rest =>
          rw [hvisit] at hdone
          simp only at hdone
          subst hdone
          simp [countFile, hvisit]

namespace FileSystem

/-- A file with a reader is not refused. -/
theorem opens_of_openFile (hopen : Reader.openFile files file = .ok r) :
    files.opens file = true ∧ files.refusal? file = none := by
  simp [opens, refusal?, hopen]

/-- A file without one is refused for the reason that opening it gives. -/
theorem refusal?_of_openFile {e : OpenError} (hopen : Reader.openFile files file = .error e) :
    files.opens file = false ∧ files.refusal? file = some e := by
  simp [opens, refusal?, hopen]

/-- A file can be opened unless it is refused. -/
theorem opens_eq_isNone_refusal? : files.opens file = (files.refusal? file).isNone := by
  unfold opens refusal?
  split <;> rfl

/-- All named files can be opened exactly if none of them is refused. -/
theorem opened_eq_self_iff (named : List Path) :
    files.opened named = named ↔ files.refusals named = [] := by
  rw [opened, refusals, List.filter_eq_self, List.filterMap_eq_nil_iff]
  refine forall₂_congr fun file _ => ?_
  rw [opens_eq_isNone_refusal?, Option.isNone_iff_eq_none]

end FileSystem

end Linewise
