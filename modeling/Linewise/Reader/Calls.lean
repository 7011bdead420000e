import Linewise.Reader

/-!
# Calls on a reader

A user of a reader makes one call after the other.  Some calls move the scan, some
look at the whole file, and one gives the mapping up.  Each visitor brings a state and
a type of errors of its own; what it may abort with is of one type for all of them.

A scanner over bytes in memory knows only the calls that move the scan.  What is
`Observed` of a step is of the same kind for both, so that a run of one can be compared
with a run of the other.

* `Pull`, `View`, `Call` — the calls, and `Call.Answer`, the type of the answer to
  each;
* `View.of` — the answer to a look, from the bytes alone; `Reader.look_eq` names the
  functions of a reader that give it;
* `Reader.serve` — the answer to a call, and the reader after it; `Reader.run` — the
  reader after many calls, with `Reader.run_invariant` for what it keeps;
* `Reader.transcript`, `Scanner.transcript` — what is observed of a run.
-/

namespace Linewise

/-- A call that moves a scan. -/
inductive Pull (π : Type) : Type 1 where
  | getline
  | forEach {σ ε : Type} (visit : Visitor σ ε π) (state : σ)

/-- A look at the whole file, wherever the scan has got to. -/
inductive View (π : Type) : Type 1 where
  | bytes
  | scanner
  | split {ε : Type} (opts : Options) (reply : Bytes → Reply ε π)
  | splitIndexed {ε : Type} (opts : Options) (rule : SegmentRule ε π)
  | countLines (opts : Options)

/-- One call on a reader. -/
inductive Call (π : Type) : Type 1 where
  | pull (p : Pull π)
  | view (v : View π)
  | unmap

variable {π : Type}

/-- A request is answered by a line or by none, and a visit by the lines that the
visitor was given, the outcome, and the visitor's last state. -/
@[reducible] def Pull.Answer : Pull π → Type
  | getline => Option Bytes
  | @forEach _ σ ε _ _ => Delivery ε π × σ

/-- A look is answered by bytes, by a scanner, by what becomes of each piece, or by a
number. -/
@[reducible] def View.Answer : View π → Type
  | bytes => Bytes
  | scanner => Scanner
  | @split _ ε _ _ => List (Delivery ε π)
  | @splitIndexed _ ε _ _ => List (Delivery ε π)
  | countLines _ => Nat

/-- Giving the mapping up has no answer. -/
@[reducible] def Call.Answer : Call π → Type
  | pull p => p.Answer
  | view v => v.Answer
  | unmap => Unit

/-- The answer to a look at the bytes `data`. -/
def View.of (data : Bytes) : (v : View π) → v.Answer
  | .bytes => data
  | .scanner => Scanner.ofBytes data
  | .split opts reply => Linewise.deliveries data opts fun _ _ => reply
  | .splitIndexed opts rule => Linewise.deliveries data opts rule
  | .countLines opts => Linewise.countLines data opts

/-- The same visitor, with a log of the lines it is given. -/
def recording {σ ε : Type} (visit : Visitor σ ε π) : Visitor (σ × Log) ε π :=
  fun (state, log) line =>
    let (reply, next) := visit state line
    (reply, next, log.add line)

/-- What a user sees of one step of a run: the answer, if the step moves the scan, and
whether the end has been found by then. -/
structure Observed (π : Type) : Type 1 where
  answer : Option ((p : Pull π) × p.Answer)
  eof : Bool

namespace Scanner

/-- The lines that a visit hands to its visitor. -/
def heard {σ ε : Type} (s : Scanner) (visit : Visitor σ ε π) (state : σ) : List Bytes :=
  (s.forEach (recording visit) (state, Log.empty)).2.1.2.seen

/-- The answer to a call that moves the scan, and the scanner after it. -/
def pull (s : Scanner) : (p : Pull π) → p.Answer × Scanner
  | .getline => s.getline
  | .forEach visit state =>
      let (outcome, last, t) := s.forEach visit state
      ((⟨s.heard visit state, outcome⟩, last), t)

/-- What is observed of a scanner that is driven by those of the calls that move a scan. -/
def transcript (s : Scanner) : List (Call π) → List (Observed π)
  | [] => []
  | .pull p :: calls =>
      let (answer, t) := s.pull p
      ⟨some ⟨p, answer⟩, t.eof⟩ :: t.transcript calls
  | _ :: calls => ⟨none, s.eof⟩ :: s.transcript calls

end Scanner

namespace Reader

/-- The lines that a visit hands to its visitor. -/
def heard {σ ε : Type} (r : Reader) (visit : Visitor σ ε π) (state : σ) : List Bytes :=
  (r.forEach (recording visit) (state, Log.empty)).2.1.2.seen

/-- The answer to a call that moves the scan, and the reader after it. -/
def pull (r : Reader) : (p : Pull π) → p.Answer × Reader
  | .getline => r.getline
  | .forEach visit state =>
      let (outcome, last, next) := r.forEach visit state
      ((⟨r.heard visit state, outcome⟩, last), next)

/-- The answer to a look at the whole file. -/
def look (r : Reader) (v : View π) : v.Answer := v.of r.bytes

/-- The answer to a call, and the reader after it.  A look at the file moves
nothing. -/
def serve (r : Reader) : (c : Call π) → c.Answer × Reader
  | .pull p => r.pull p
  | .view v => (r.look v, r)
  | .unmap => ((), r.unmap)

/-- The reader after some calls, the first of them made first. -/
def run (r : Reader) (calls : List (Call π)) : Reader :=
  calls.foldl (fun r call => (r.serve call).2) r

/-- What is observed of a reader that serves the calls. -/
def transcript (r : Reader) : List (Call π) → List (Observed π)
  | [] => []
  | .pull p :: calls =>
      let (answer, next) := r.pull p
      ⟨some ⟨p, answer⟩, next.eof⟩ :: next.transcript calls
  | call :: calls =>
      let next := (r.serve call).2
      ⟨none, next.eof⟩ :: next.transcript calls

/-- The looks are what the reader offers under their names. -/
theorem look_eq (r : Reader) {ε : Type} (opts : Options) (reply : Bytes → Reply ε π)
    (rule : SegmentRule ε π) :
    r.look (.bytes : View π) = r.bytes ∧ r.look (.scanner : View π) = r.scanner ∧
      r.look (.split opts reply) = r.deliveries opts (fun _ _ => reply) ∧
      r.look (.splitIndexed opts rule) = r.deliveries opts rule ∧
      r.look (.countLines opts : View π) = r.countLines opts :=
  ⟨rfl, rfl, rfl, rfl, rfl⟩

@[simp] theorem run_nil (r : Reader) : r.run ([] : List (Call π)) = r := rfl

@[simp] theorem run_cons (r : Reader) (call : Call π) (calls : List (Call π)) :
    r.run (call :: calls) = (r.serve call).2.run calls := rfl

/-- Calls may be made in two goes. -/
theorem run_append (r : Reader) (calls more : List (Call π)) :
    r.run (calls ++ more) = (r.run calls).run more :=
  List.foldl_append

/-- What every call keeps, any calls keep. -/
theorem run_invariant {motive : Reader → Prop}
    (step : ∀ r (call : Call π), motive r → motive (r.serve call).2) {r : Reader}
    (h : motive r) (calls : List (Call π)) : motive (r.run calls) := by
  induction calls generalizing r with
  | nil => exact h
  | cons call calls ih =>
      rw [run_cons]
      exact ih (step r call h)

end Reader

end Linewise
