import Linewise.Scanner
import Linewise.Source
import Linewise.Split

/-!
# Readers

A reader goes over the lines of one file.  It keeps a source and, apart from it,
the cursor of a sequential scan.  The scan that finds no line left retires the
cursor and gives the mapping up, so that a file read to its end costs no memory.

* `getline` — the next line;
* `forEach` — every remaining line, to a visitor.  The scan runs on a copy of the
  cursor, which is stored when the visit ends; a visitor that aborts leaves the
  reader as it was;
* `bytes`, `scanner`, `deliveries`, `countLines` — the whole file, wherever the
  cursor is, as long as the mapping lasts;
* `scan` — the scanner that a reader stands for: `forEach_answer` says that it answers
  a visit in the same way, and `forEach_eq_store` and `forEach_of_aborted` what becomes
  of the cursor.
-/

namespace Linewise

/-- A sequential scan over a mapped file. -/
structure Reader where
  source : Source
  /-- Where the scan goes on, as long as it has not found the end. -/
  cursor : Option Nat
  deriving Repr, DecidableEq

namespace Reader

/-- The reader before the first line of a source. -/
def ofSource (source : Source) : Reader :=
  ⟨source, if source.isEmpty then none else some 0⟩

/-- The reader before the first line of a file. -/
def openFile [Platform] (files : FileSystem) (path : Path) : Except OpenError Reader :=
  (Source.openFile files path).map ofSource

/-- The path that the file was opened by. -/
def path (r : Reader) : Path := r.source.path

/-- Whether the file is still mapped. -/
def isMapped (r : Reader) : Bool := r.source.isMapped

/-- Whether the scan has found the end. -/
def eof (r : Reader) : Bool := r.cursor.isNone

/-- The number of bytes of the file, as long as it is mapped. -/
def length (r : Reader) : Nat := r.source.length

/-- Whether there are no bytes to show. -/
def isEmpty (r : Reader) : Bool := r.source.isEmpty

/-- The whole file, as long as it is mapped. -/
def bytes (r : Reader) : Bytes := r.source.bytes

/-- Give the mapping up, and with it the scan. -/
def unmap (r : Reader) : Reader := ⟨r.source.unmap, none⟩

/-- The scanner that the reader stands for. -/
def scan (r : Reader) : Scanner := Scanner.resume r.bytes r.cursor

/-- Store the cursor of a scan.  A retired one ends the mapping. -/
def store (r : Reader) (cursor : Option Nat) : Reader :=
  if cursor.isNone then r.unmap else { r with cursor := cursor }

/-- The next line.  The request that finds none ends the mapping. -/
def getline (r : Reader) : Option Bytes × Reader :=
  match r.cursor with
  | none => (none, r.unmap)
  | some offset =>
      if r.length ≤ offset then (none, r.unmap)
      else
        let (line, scanner) := r.scan.getline
        (line, { r with cursor := scanner.position })

/-- Hand every remaining line to a visitor.  A visit that aborts stores nothing. -/
def forEach {σ ε π : Type} (visit : Visitor σ ε π) (state : σ) (r : Reader) :
    Outcome ε π × σ × Reader :=
  match r.scan.forEach visit state with
  | (.aborted payload, next, _) => (.aborted payload, next, r)
  | (outcome, next, scanner) => (outcome, next, r.store scanner.position)

/-- A scanner over the whole file. -/
def scanner (r : Reader) : Scanner := Scanner.ofBytes r.bytes

/-- What becomes of each piece when threads share the whole file. -/
def deliveries {ε π : Type} (r : Reader) (opts : Options) (rule : SegmentRule ε π) :
    List (Delivery ε π) :=
  Linewise.deliveries r.bytes opts rule

/-- The number of lines of the whole file. -/
def countLines (r : Reader) (opts : Options) : Nat :=
  Linewise.countLines r.bytes opts

/-- Reader and scanner have found the end together. -/
theorem eof_scan (r : Reader) : r.scan.eof = r.eof := by
  obtain ⟨source, cursor⟩ := r
  cases cursor with
  | none => rfl
  | some offset => rfl

/-- A reader stands for a scanner that has ended exactly if it has ended itself. -/
theorem scan_eq_retired_iff {r : Reader} : r.scan = .retired ↔ r.eof = true := by
  obtain ⟨source, cursor⟩ := r
  cases cursor with
  | none => simp [scan, eof, Scanner.resume]
  | some offset => simp [scan, eof, Scanner.resume]

section

variable {σ ε π : Type} (r : Reader) (visit : Visitor σ ε π) (state : σ)

/-- A visit is answered as by the scanner that the reader stands for. -/
theorem forEach_answer :
    (r.forEach visit state).1 = (r.scan.forEach visit state).1 ∧
      (r.forEach visit state).2.1 = (r.scan.forEach visit state).2.1 := by
  unfold forEach
  split
  · next payload next s hscan => simp [hscan]
  · next outcome next s _ hscan => simp [hscan]

/-- A visit that does not abort stores where the scan stopped. -/
theorem forEach_eq_store
    (hcalm : ∀ payload, (r.scan.forEach visit state).1 ≠ .aborted payload) :
    (r.forEach visit state).2.2 = r.store (r.scan.forEach visit state).2.2.position := by
  unfold forEach
  split
  · next payload next s hscan => exact absurd (congrArg Prod.fst hscan) (hcalm payload)
  · next outcome next s _ hscan => simp [hscan]

/-- A visit that aborts stores nothing. -/
theorem forEach_of_aborted {payload : π}
    (h : (r.scan.forEach visit state).1 = .aborted payload) :
    (r.forEach visit state).2.2 = r := by
  unfold forEach
  split
  · rfl
  · next outcome next s hother hscan =>
      rw [hscan] at h
      exact absurd h (hother payload)

end

end Reader

end Linewise
