import Linewise.Plan
import Linewise.Scanner
import Linewise.Split.Options

/-!
# Splitting a byte string among workers

A byte string that is large enough is planned into segments, one for each
worker, and each worker scans its own segment and hands the lines to the visitor.
A smaller one is left to a single worker.

The workers do not wait for one another and do not stop one another: each goes
on until its segment is used up or its own visitor stops it.  So what a worker
delivers is a function of its own segment, and the split as a whole is the list
of deliveries, in the order of the segments:

* `deliver` — the lines a single worker hands out, and how its scan ends;
* `deliveries` — all of them;
* `Tally` — what the caller collects, worker by worker: the results of those
  that came to an end, and the payload of the first one that aborted;
* `join` — the one outcome of the split, read off the tally.

`countLines` needs no visitor and counts each segment by its newlines.
-/

namespace Linewise

/-- A rule for the replies of all workers: a reply may depend on the index of
the segment, the number of the call within it, and the line. -/
abbrev SegmentRule (ε π : Type) := Nat → Nat → Bytes → Reply ε π

/-- What a worker comes to. -/
structure Delivery (ε π : Type) where
  /-- The lines it handed out, the one that stopped it included. -/
  lines : List Bytes
  outcome : Outcome ε π
  deriving Repr, DecidableEq

/-- What the caller has collected from the workers it has joined so far. -/
structure Tally (ε π : Type) where
  /-- The results of the workers that did not abort, the latest first. -/
  results : List (Except ε Nat)
  /-- The payload of the first worker that aborted. -/
  aborted : Option π
  deriving Repr

namespace Tally

variable {ε π : Type}

/-- Nothing collected yet. -/
def empty : Tally ε π := ⟨[], none⟩

/-- Join one more worker.  An abort is kept only if it is the first. -/
def add (tally : Tally ε π) : Outcome ε π → Tally ε π
  | .done count => { tally with results := .ok count :: tally.results }
  | .failed error => { tally with results := .error error :: tally.results }
  | .aborted payload => { tally with aborted := tally.aborted.or (some payload) }

/-- Add up results from the first to the last, and stop at an error. -/
def total : Nat → List (Except ε Nat) → Outcome ε π
  | sum, [] => .done sum
  | sum, .ok count :: later => total (sum + count) later
  | _, .error error :: _ => .failed error

/-- The outcome, once all workers are joined.  An abort is passed on before any
result is looked at. -/
def close (tally : Tally ε π) : Outcome ε π :=
  match tally.aborted with
  | some payload => .aborted payload
  | none => total 0 tally.results.reverse

end Tally

/-- The outcome of many outcomes. -/
def join {ε π : Type} (outcomes : List (Outcome ε π)) : Outcome ε π :=
  (outcomes.foldl Tally.add Tally.empty).close

/-- Let one worker scan a piece. -/
def deliver {ε π : Type} (reply : Nat → Bytes → Reply ε π) (piece : Bytes) :
    Delivery ε π :=
  let (outcome, log, _) := (Scanner.ofBytes piece).forEach (logged reply) Log.empty
  ⟨log.seen, outcome⟩

/-- The pieces that the workers scan, from left to right. -/
def pieces (data : Bytes) (opts : Options) : List Bytes :=
  if opts.isSequential data.length then [data]
  else (plan data opts.threads).map (·.slice data)

/-- What the workers do, from the lowest segment to the highest. -/
def deliveries {ε π : Type} (data : Bytes) (opts : Options) (rule : SegmentRule ε π) :
    List (Delivery ε π) :=
  (pieces data opts).mapIdx fun index piece => deliver (rule index) piece

/-- Hand every line of `data` to a visitor that is told the index of the
segment. -/
def splitIndexed {ε π : Type} (data : Bytes) (opts : Options) (rule : SegmentRule ε π) :
    Outcome ε π :=
  join ((deliveries data opts rule).map Delivery.outcome)

/-- Hand every line of `data` to a visitor that is told nothing else. -/
def split {ε π : Type} (data : Bytes) (opts : Options) (reply : Bytes → Reply ε π) :
    Outcome ε π :=
  splitIndexed data opts fun _ _ => reply

/-- The number of lines of `data`, counted piece by piece. -/
def countLines (data : Bytes) (opts : Options) : Nat :=
  (pieces data opts).foldl (fun total piece => total + lineCount piece) 0

end Linewise
