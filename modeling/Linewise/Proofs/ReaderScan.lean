import Linewise.Proofs.ReaderStates

/-!
# A reader scans like a scanner

A scanner keeps its bytes to the end and a reader does not: it finds the end by a test
of its own, gives the mapping up there, and runs every visit on a copy of its cursor.
None of this shows in the answers.  The scanner that a reader stands for is
`Reader.scan`, and a call on the one does to it what the same call does to the other.

The calls must be `Calm`.  A visitor that aborts takes a scanner past the line that it
was given but leaves a reader where it was, and a reader whose mapping was given up by
hand has ended early.

* `Reader.Sound.pull_eq` — one call that moves the scan;
* `Reader.Sound.transcript_eq` — any calls;
* `reader_scans_like_scanner` — **nothing tells a reader from a scanner.**
-/

namespace Linewise

variable {π : Type}

/-- A call that no visitor of the scan aborts, and that does not give the mapping up. -/
inductive Call.Calm : Call π → Prop
  | getline : Calm (.pull .getline)
  | forEach {σ ε : Type} {visit : Visitor σ ε π} {state : σ}
      (steady : ∀ state line payload, (visit state line).1 ≠ .abort payload) :
      Calm (.pull (.forEach visit state))
  | view {v : View π} : Calm (.view v)

namespace Reader

variable {content : Bytes} {r : Reader}

/-- A visit hands out the lines that it would hand out as a scan. -/
theorem heard_eq {σ ε : Type} (r : Reader) (visit : Visitor σ ε π) (state : σ) :
    r.heard visit state = r.scan.heard visit state := by
  rw [heard, (r.forEach_answer (recording visit) (state, Log.empty)).2]
  rfl

namespace Sound

/-- **One call that moves the scan** is answered as by the scanner that the reader stands
for, and leaves a reader that stands for the scanner after it. -/
theorem pull_eq (h : Sound content r) {p : Pull π} (hcalm : (Call.pull p).Calm) :
    (r.pull p).1 = (r.scan.pull p).1 ∧ (r.pull p).2.scan = (r.scan.pull p).2 := by
  cases hcalm with
  | getline => exact ⟨congrArg Prod.fst h.getline_eq_store, h.getline.2⟩
  | @forEach σ ε visit state steady =>
      obtain ⟨houtcome, hlast⟩ := r.forEach_answer visit state
      constructor
      · simp only [Reader.pull, Scanner.pull, houtcome, hlast, r.heard_eq visit state]
      · exact (h.forEach visit state).2 (Scanner.forEach_ne_aborted steady state r.scan)

/-- **Any calls.**  The induction is on the calls; the reader stays in a sound state, and
the scanner it stands for is the one that the other run has come to. -/
theorem transcript_eq (h : Sound content r) (calls : List (Call π))
    (hcalm : ∀ call ∈ calls, call.Calm) : r.transcript calls = r.scan.transcript calls := by
  induction calls generalizing r with
  | nil => rfl
  | cons call calls ih =>
      have hhead : call.Calm := hcalm call List.mem_cons_self
      have hlater : ∀ later ∈ calls, later.Calm := fun later hmem =>
        hcalm later (List.mem_cons_of_mem call hmem)
      have hnext := ih (h.serve call) hlater
      cases call with
      | pull p =>
          obtain ⟨hanswer, hscan⟩ := h.pull_eq hhead
          have htail : (r.pull p).2.transcript calls = (r.scan.pull p).2.transcript calls := by
            rw [← hscan]
            exact hnext
          have heof : (r.pull p).2.eof = (r.scan.pull p).2.eof := by
            rw [← hscan, eof_scan]
          simp only [Reader.transcript, Scanner.transcript, hanswer, heof, htail]
      | view v =>
          have htail : r.transcript calls = r.scan.transcript calls := hnext
          simp only [Reader.transcript, Scanner.transcript, Reader.serve, htail, eof_scan]
      | unmap => cases hhead

end Sound

end Reader

/-- **Nothing tells a reader from a scanner.**  A regular file whose bytes have addresses
can be opened.  Let the calls on its reader be calm, with looks at the whole file anywhere
among them.  Then a scanner over the content, driven by those of the calls that move a
scan, gives the same lines, outcomes and states of visitors, hands the same lines to the
visitors, and finds the end at the same step, although the reader has no mapping any more
from there on. -/
theorem reader_scans_like_scanner [Platform] {files : FileSystem} {path : Path} {content : Bytes}
    (hfile : files.Holds path content) (calls : List (Call π))
    (hcalm : ∀ call ∈ calls, call.Calm) :
    (content.length < addressSpace → ∃ r, Reader.openFile files path = .ok r) ∧
      ∀ r, Reader.openFile files path = .ok r →
        r.transcript calls = (Scanner.ofBytes content).transcript calls ∧
          (r.run calls).eof = !(r.run calls).isMapped := by
  refine ⟨Reader.exists_of_openFile hfile, ?_⟩
  intro r hopen
  obtain ⟨hsound, hscan⟩ := Reader.of_openFile hfile hopen
  rw [← hscan]
  exact ⟨hsound.transcript_eq calls hcalm, (hsound.run calls).eof_eq.1⟩

/-- An error exactly on the last line leaves both before their end, and the next request
takes both there. -/
theorem reader_scans_like_scanner_past_a_failure :
    let content : Bytes := [97, 10, 98]
    let files : FileSystem := fun _ => .ok (.regular content)
    let r : Reader := ⟨⟨[120], some content⟩, some 0⟩
    let visit : Visitor Nat Nat Unit := fun given line =>
      (if given = 0 then .accept else .fail line.length, given + 1)
    let calls : List (Call Unit) := [.pull (.forEach visit 0), .view .bytes, .pull .getline]
    files.Holds [120] content ∧
      (∀ call ∈ calls, call.Calm) ∧
      content.length < addressSpace ∧
      Reader.openFile files [120] = .ok r ∧
      r.transcript calls = (Scanner.ofBytes content).transcript calls ∧
      (r.transcript calls).map (·.eof) = [false, false, true] := by
  intro content files r visit calls
  have hfile : files.Holds [120] content := FileSystem.holds_of_regular rfl
  have hopen : Reader.openFile files [120] = .ok r := rfl
  have hcalm : ∀ call ∈ calls, call.Calm := by
    intro call hcall
    simp only [calls, List.mem_cons, List.not_mem_nil, or_false] at hcall
    rcases hcall with rfl | rfl | rfl
    · refine Call.Calm.forEach ?_
      intro given line payload
      simp only [visit]
      split <;> simp
    · exact Call.Calm.view
    · exact Call.Calm.getline
  obtain ⟨-, hsame⟩ := reader_scans_like_scanner hfile calls hcalm
  have hends : (r.transcript calls).map (·.eof) = [false, false, true] := by decide +kernel
  exact ⟨hfile, hcalm, by decide, hopen, (hsame r hopen).1, hends⟩

end Linewise
