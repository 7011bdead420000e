import Linewise.Plan.Limited
import Linewise.Split

/-!
# Scanning and counting with limited numbers

The limited forms of a scan, of a visit, of a split among workers and of a count of lines: each
fails as soon as an offset, a number of lines or a sum of such numbers exceeds the limit.

The pieces that are counted for a total are shared out among helpers in a way that nobody
settles beforehand.  A `Sharing` is any such way: a run of pieces is counted by one helper,
and two halves are added up when both are counted.

* `Limited.getline`, `Limited.forEach` — the next line, and a visit of all lines;
* `Limited.splitIndexed` — a split, with the number of lines that the caller adds up;
* `Limited.lineCount`, `Sharing.count` — the number of lines, of one piece and of many.
-/

namespace Linewise

namespace Limited

/-- The next line, and the scanner past it. -/
def getline (limit : Nat) : Scanner → Option (Option Bytes × Scanner)
  | .retired => some (none, .retired)
  | .reading _ [] => some (none, .retired)
  | .reading offset (b :: bs) =>
      let line := (b :: bs).takeWhile inLine
      match sum limit offset line.length, (b :: bs).dropWhile inLine with
      | none, _ => none
      | some place, [] => some (some line, .reading place [])
      | some place, _ :: later =>
          (sum limit place 1).map fun next => (some line, .reading next later)

/-- A limited request that does not fail is a request. -/
theorem getline_eq_of_some {limit : Nat} {s : Scanner} {answer : Option Bytes × Scanner}
    (h : getline limit s = some answer) : s.getline = answer := by
  unfold getline at h
  split at h
  · cases h
    rfl
  · cases h
    rfl
  · next offset b bs =>
      unfold sum at h
      simp only at h
      split at h
      · cases h
      · next hplace hdrop =>
          split at hplace <;> cases hplace
          cases h
          simp [Scanner.getline, hdrop]
      · next hplace hdrop =>
          split at hplace <;> cases hplace
          split at h <;> cases h
          simp [Scanner.getline, hdrop]

/-- Hand every remaining line to a visitor; `count` of them were accepted so far. -/
def forEach {σ ε π : Type} (limit : Nat) (visit : Visitor σ ε π) (count : Nat) (state : σ)
    (s : Scanner) : Option (Outcome ε π × σ × Scanner) :=
  match h : getline limit s with
  | none => none
  | some (none, t) => some (.done count, state, t)
  | some (some line, t) =>
      have := Scanner.length_remaining_lt (getline_eq_of_some h)
      match visit state line with
      | (.accept, next) =>
          (sum limit count 1).bind fun count => forEach limit visit count next t
      | (.fail error, next) => some (.failed error, next, t)
      | (.abort payload, next) => some (.aborted payload, next, t)
termination_by s.remaining.length

variable {ε π : Type}

/-- How the scan of a single worker ends. -/
def deliver (limit : Nat) (reply : Nat → Bytes → Reply ε π) (piece : Bytes) :
    Option (Outcome ε π) :=
  (forEach limit (logged reply) 0 Log.empty (Scanner.ofBytes piece)).map (·.1)

/-- The pieces that the workers scan. -/
def pieces (limit : Nat) (data : Bytes) (opts : Options) : Option (List Bytes) :=
  if opts.isSequential data.length then some [data]
  else (plan limit data opts.threads).bind fun segments =>
    segments.mapM fun s => s.slice? data

/-- Add up results from the first to the last, and stop at an error. -/
def total (limit : Nat) : Nat → List (Except ε Nat) → Option (Outcome ε π)
  | count, [] => some (.done count)
  | count, .ok more :: later =>
      (sum limit count more).bind fun count => total limit count later
  | _, .error error :: _ => some (.failed error)

/-- Hand every line of `data` to a visitor that is told the index of the segment. -/
def splitIndexed (limit : Nat) (data : Bytes) (opts : Options) (rule : SegmentRule ε π) :
    Option (Outcome ε π) := do
  let pieces ← pieces limit data opts
  let outcomes ← pieces.zipIdx.mapM fun (piece, index) => deliver limit (rule index) piece
  let tally := outcomes.foldl Tally.add Tally.empty
  match tally.aborted with
  | some payload => return .aborted payload
  | none => total limit 0 tally.results.reverse

/-- The number of lines: one for each newline, and one for an open tail. -/
def lineCount (limit : Nat) (data : Bytes) : Option Nat :=
  sum limit (data.count newline) (hasOpenTail data).toNat

end Limited

/-- A way to share pieces out among those who count their lines. -/
inductive Sharing where
  /-- One helper counts them, one after the other. -/
  | run (pieces : List Bytes)
  | halves (left right : Sharing)
  deriving Repr, DecidableEq

namespace Sharing

/-- The pieces, from left to right. -/
def pieces : Sharing → List Bytes
  | run pieces => pieces
  | halves left right => left.pieces ++ right.pieces

/-- The number of lines, added up as the pieces are shared out. -/
def count (limit : Nat) : Sharing → Option Nat
  | run pieces =>
      pieces.foldlM (fun total piece =>
        (Limited.lineCount limit piece).bind (Limited.sum limit total)) 0
  | halves left right => do
      let first ← left.count limit
      let second ← right.count limit
      Limited.sum limit first second

end Sharing

end Linewise
