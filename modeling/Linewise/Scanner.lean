import Linewise.Line
import Linewise.Visit

/-!
# The scanner

A scanner walks over a byte string from line to line.  It holds the offset it
has reached and the bytes from there on.  Asked for a line when none is left, it
retires, and a retired scanner stays retired.

* `getline` — the next line, and the scanner past it;
* `length_remaining_lt` — a line taken is never taken again: fewer bytes remain;
* `nth`, `take`, `rest`, `count`, `last?` — the ways to walk on by `getline`;
* `forEach` — hand every remaining line to a visitor, until it stops.

A scanner that has handed out its last line is not yet retired: it stands at the
end, and only the next request retires it.  A scanner of no bytes is retired
from the start.
-/

namespace Linewise

/-- A position in a byte string, with the bytes that follow it. -/
inductive Scanner where
  /-- At `offset`, before the bytes `unread`. -/
  | reading (offset : Nat) (unread : Bytes)
  | retired
  deriving Repr, DecidableEq

namespace Scanner

/-- The scanner that goes on over `data` where an earlier scan left its cursor. -/
def resume (data : Bytes) : Option Nat → Scanner
  | some offset => reading offset (data.drop offset)
  | none => retired

/-- The scanner before the first line of `data`. -/
def ofBytes (data : Bytes) : Scanner :=
  resume data (if data.isEmpty then none else some 0)

/-- The offset of the next unread byte, as long as the scanner is not retired. -/
def position : Scanner → Option Nat
  | reading offset _ => some offset
  | retired => none

/-- The bytes to come. -/
def remaining : Scanner → Bytes
  | reading _ unread => unread
  | retired => []

/-- The end has been found. -/
def eof : Scanner → Bool
  | reading _ _ => false
  | retired => true

/-- The next line, and the scanner past it and past the newline that ends it.
With nothing left to read there is no line, and the scanner retires. -/
def getline : Scanner → Option Bytes × Scanner
  | retired => (none, retired)
  | reading _ [] => (none, retired)
  | reading offset (b :: bs) =>
      let line := (b :: bs).takeWhile inLine
      match (b :: bs).dropWhile inLine with
      | [] => (some line, reading (offset + line.length) [])
      | _ :: later => (some line, reading (offset + line.length + 1) later)

/-- What is left behind the dropped bytes is no longer than the whole. -/
private theorem length_dropWhile_le (p : UInt8 → Bool) (bs : Bytes) :
    (bs.dropWhile p).length ≤ bs.length := by
  have h := congrArg List.length (List.takeWhile_append_dropWhile (p := p) (l := bs))
  rw [List.length_append] at h
  omega

/-- **A line taken shortens what remains.**  So every walk over the lines ends. -/
theorem length_remaining_lt {s t : Scanner} {line : Bytes}
    (h : s.getline = (some line, t)) : t.remaining.length < s.remaining.length := by
  unfold getline at h
  split at h
  · simp at h
  · simp at h
  · rename_i offset b bs
    have hle := length_dropWhile_le inLine (b :: bs)
    simp only at h
    split at h
    · cases h
      simp [remaining]
    · rename_i c later hdrop
      cases h
      simp only [hdrop, List.length_cons] at hle
      simp only [remaining, List.length_cons]
      omega

/-- A request that finds no line retires the scanner. -/
theorem retired_of_getline_none {s t : Scanner} (h : s.getline = (none, t)) :
    t = retired := by
  unfold getline at h
  split at h
  · simp_all
  · simp_all
  · simp only at h
    split at h <;> simp at h

/-- Skip `n` lines and take the next one.  The walk stops at the first request
that finds no line. -/
def nth : Nat → Scanner → Option Bytes × Scanner
  | 0, s => s.getline
  | n + 1, s =>
      match s.getline with
      | (none, t) => (none, t)
      | (some _, t) => nth n t

/-- Up to `n` lines, and the scanner past them.  After `n` lines nothing more is
asked for. -/
def take (n : Nat) (s : Scanner) : List Bytes × Scanner :=
  loop n s []
where
  /-- Take the lines one by one; `taken` has the latest first. -/
  loop : Nat → Scanner → List Bytes → List Bytes × Scanner
    | 0, s, taken => (taken.reverse, s)
    | n + 1, s, taken =>
        match s.getline with
        | (none, t) => (taken.reverse, t)
        | (some line, t) => loop n t (line :: taken)

/-- Combine all remaining lines, from the first to the last. -/
def foldLines {σ : Type} (f : σ → Bytes → σ) (acc : σ) (s : Scanner) : σ :=
  match h : s.getline with
  | (none, _) => acc
  | (some line, t) =>
      have := length_remaining_lt h
      foldLines f (f acc line) t
termination_by s.remaining.length

/-- The lines handed out from now on. -/
def rest (s : Scanner) : List Bytes :=
  (s.foldLines (fun ls line => line :: ls) []).reverse

/-- The number of lines handed out from now on. -/
def count (s : Scanner) : Nat :=
  s.foldLines (fun n _ => n + 1) 0

/-- The last line handed out from now on. -/
def last? (s : Scanner) : Option Bytes :=
  s.foldLines (fun _ line => some line) none

/-- Hand every remaining line to a visitor.  The result is the outcome, the
visitor's last state, and the scanner past the last line handed out: a failing
or aborting visitor leaves it just behind the line it was given. -/
def forEach {σ ε π : Type} (visit : Visitor σ ε π) (state : σ) (s : Scanner) :
    Outcome ε π × σ × Scanner :=
  loop 0 state s
where
  /-- Hand out the lines one by one; `count` of them were accepted so far. -/
  loop (count : Nat) (state : σ) (s : Scanner) : Outcome ε π × σ × Scanner :=
    match h : s.getline with
    | (none, t) => (.done count, state, t)
    | (some line, t) =>
        have := length_remaining_lt h
        match visit state line with
        | (.accept, next) => loop (count + 1) next t
        | (.fail error, next) => (.failed error, next, t)
        | (.abort payload, next) => (.aborted payload, next, t)
  termination_by s.remaining.length

/-- A visit without a line to come is at its end. -/
theorem forEach_loop_of_none {σ ε π : Type} (visit : Visitor σ ε π) {s t : Scanner}
    (h : s.getline = (none, t)) (count : Nat) (state : σ) :
    forEach.loop visit count state s = (.done count, state, t) := by
  rw [forEach.loop]
  split
  · simp_all
  · simp_all

/-- A visit with a line goes on as the visitor answers. -/
theorem forEach_loop_of_some {σ ε π : Type} (visit : Visitor σ ε π) {s t : Scanner}
    {line : Bytes} (h : s.getline = (some line, t)) (count : Nat) (state : σ) :
    forEach.loop visit count state s =
      match visit state line with
      | (.accept, next) => forEach.loop visit (count + 1) next t
      | (.fail error, next) => (.failed error, next, t)
      | (.abort payload, next) => (.aborted payload, next, t) := by
  rw [forEach.loop]
  split
  · simp_all
  · rename_i line' t' h'
    cases h.symm.trans h'
    rfl

end Scanner

end Linewise
