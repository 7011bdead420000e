import Linewise.Line
import Linewise.Segment

/-!
# Plans

A plan cuts a byte string into at most `parts` segments of about equal size, and
cuts only just behind a newline, so that no line is shared by two segments.

The `i`-th of `parts` division points is the offset `i * (length / parts)`.  The
planner goes through them from left to right.  At each it looks at the window
that begins where the last segment ended and closes with the byte at the
division point, and cuts behind the last newline in it.  A window without a
newline gives no cut, and a division point that lies before the last cut gives
no window.  What is left behind the last cut is the last segment.

* `divisionPoints` — the offsets to cut at, which `mem_divisionPoints` gives as
  multiples;
* `Progress.advance` — what one division point does; `Progress.advance_eq` says
  the same of its window;
* `plan` — the segments, from left to right; `plan_eq_foldl` says that points at
  the same offset may as well be visited one by one;
* `boundary` — where a cut for an offset lies by itself, without the cuts made
  before it.
-/

namespace Linewise

/-- How far a plan has come. -/
structure Progress where
  start : Nat
  /-- The bytes from there on. -/
  unplanned : Bytes
  /-- The segments before it, the latest first. -/
  segments : List Segment
  deriving Repr, DecidableEq

namespace Progress

/-- Nothing planned, and all data ahead. -/
def begin (data : Bytes) : Progress := ⟨0, data, []⟩

/-- The bytes from the start of the next segment to the byte at `target`. -/
def window (p : Progress) (target : Nat) : Bytes :=
  p.unplanned.take (target + 1 - p.start)

/-- End the segment after `width` bytes. -/
def close (p : Progress) (width : Nat) : Progress :=
  { start := p.start + width
    unplanned := p.unplanned.drop width
    segments := ⟨p.start, p.start + width⟩ :: p.segments }

/-- Try to end the segment behind the last newline up to the division point
`target`. -/
def advance (p : Progress) (target : Nat) : Progress :=
  if target < p.start then p
  else match lastBreak (target + 1 - p.start) p.unplanned with
    | 0 => p
    | width + 1 => p.close (width + 1)

/-- End the last segment at the end of the data, unless it would be empty. -/
def finish (p : Progress) : Progress :=
  if p.unplanned.isEmpty then p else p.close p.unplanned.length

end Progress

/-- The division points between `parts` pieces of a byte string of `length`
bytes: the multiples of the piece size, without the first offset.  Between pieces
of no bytes they all lie at the first offset, where one of them is enough. -/
def divisionPoints (length parts : Nat) : List Nat :=
  match length / parts with
  | 0 => if 1 < parts then [0] else []
  | size + 1 => (List.range' 1 (parts - 1)).map (· * (size + 1))

/-- The segments of `data` for `parts` workers.  No worker at all counts as
one. -/
def plan (data : Bytes) (parts : Nat) : List Segment :=
  ((divisionPoints data.length (max parts 1)).foldl Progress.advance
    (Progress.begin data)).finish.segments.reverse

/-- The offset behind the last newline of `data` at or before `target`, zero if
there is none. -/
def boundary (data : Bytes) (target : Nat) : Nat :=
  ((data.take (target + 1)).reverse.dropWhile inLine).length

/-- The division points are the multiples of the piece size that lie between two
pieces, whatever that size is. -/
theorem mem_divisionPoints {length parts target : Nat} :
    target ∈ divisionPoints length parts ↔
      ∃ i, 1 ≤ i ∧ i < parts ∧ target = i * (length / parts) := by
  unfold divisionPoints
  split
  · next hsize =>
      simp only [hsize, Nat.mul_zero]
      split
      · next hparts =>
          rw [List.mem_singleton]
          exact ⟨fun h => ⟨1, Nat.le_refl 1, hparts, h⟩, fun ⟨_, _, _, h⟩ => h⟩
      · next hparts =>
          constructor
          · intro h
            cases h
          · rintro ⟨i, hone, hlt, -⟩
            omega
  · next size hsize =>
      rw [hsize, List.mem_map]
      constructor
      · rintro ⟨i, hi, rfl⟩
        rw [List.mem_range'_1] at hi
        exact ⟨i, hi.1, by omega, rfl⟩
      · rintro ⟨i, hone, hlt, rfl⟩
        exact ⟨i, List.mem_range'_1.mpr ⟨hone, by omega⟩, rfl⟩

/-- A division point cuts where the line begun last in its window starts.  One
before the start of the segment has an empty window, so it cuts nowhere. -/
theorem Progress.advance_eq (p : Progress) (target : Nat) :
    p.advance target = match ((p.window target).reverse.dropWhile inLine).length with
      | 0 => p
      | width + 1 => p.close (width + 1) := by
  rw [Progress.advance, lastBreak_eq, Progress.window]
  split
  · next hlt =>
      have hsize : target + 1 - p.start = 0 := by omega
      simp [hsize]
  · rfl

/-- At the first offset a second visit finds what the first one left. -/
theorem Progress.advance_zero_advance_zero (p : Progress) :
    (p.advance 0).advance 0 = p.advance 0 := by
  by_cases hstart : 0 < p.start
  · have hskip : p.advance 0 = p := by rw [advance, if_pos hstart]
    rw [hskip, hskip]
  · cases hbreak : lastBreak (0 + 1 - p.start) p.unplanned with
    | zero =>
        have hnone : p.advance 0 = p := by rw [advance, if_neg hstart, hbreak]
        rw [hnone, hnone]
    | succ width =>
        have hcut : p.advance 0 = p.close (width + 1) := by
          rw [advance, if_neg hstart, hbreak]
        have hpos : 0 < (p.close (width + 1)).start := Nat.succ_pos (p.start + width)
        rw [hcut, advance, if_pos hpos]

/-- Any number of visits at the first offset, but at least one, is as good as one. -/
theorem Progress.foldl_advance_zero (n : Nat) (p : Progress) :
    (List.replicate (n + 1) 0).foldl advance p = p.advance 0 := by
  induction n with
  | zero => rfl
  | succ n ih =>
      rw [List.replicate_succ', List.foldl_append, ih]
      exact p.advance_zero_advance_zero

/-- **Every division point counts.**  The plan is what all of the points between the
parts make of the data, one after the other, also where they all lie at the first
offset. -/
theorem plan_eq_foldl (data : Bytes) (parts : Nat) :
    plan data parts =
      (((List.range' 1 (max parts 1 - 1)).map (· * (data.length / max parts 1))).foldl
        Progress.advance (Progress.begin data)).finish.segments.reverse := by
  rw [plan, divisionPoints]
  split
  · next hsize =>
      have hzero : (List.range' 1 (max parts 1 - 1)).map (· * 0) =
          List.replicate (max parts 1 - 1) 0 := by
        simp [List.map_const']
      rw [hsize, hzero]
      split
      · next hparts =>
          obtain ⟨n, hn⟩ : ∃ n, max parts 1 - 1 = n + 1 := ⟨max parts 1 - 2, by omega⟩
          rw [hn, Progress.foldl_advance_zero]
          rfl
      · next hparts =>
          have hnone : max parts 1 - 1 = 0 := by omega
          rw [hnone]
          rfl
  · next size hsize => rw [hsize]

end Linewise
