import Linewise.Bytes

/-!
# Segments

A segment is a half-open range of offsets: it holds the bytes from `start` up to
but without `stop`.  Over a byte string that it fits, a segment cuts out a piece
of `length` bytes; over any other there is no such piece.
-/

namespace Linewise

/-- A half-open range of offsets. -/
structure Segment where
  start : Nat
  stop : Nat
  deriving Repr, DecidableEq

namespace Segment

/-- The number of bytes in the range. -/
def length (s : Segment) : Nat := s.stop - s.start

/-- The range holds no byte. -/
def isEmpty (s : Segment) : Bool := s.start == s.stop

/-- The range lies within `data`, and its ends are in order. -/
def Fits (s : Segment) (data : Bytes) : Prop :=
  s.start ≤ s.stop ∧ s.stop ≤ data.length

instance (s : Segment) (data : Bytes) : Decidable (s.Fits data) :=
  inferInstanceAs (Decidable (_ ∧ _))

/-- The bytes of `data` in the range.  A range that does not fit cuts out what there is.
-/
def slice (s : Segment) (data : Bytes) : Bytes :=
  (data.drop s.start).take s.length

/-- The bytes of `data` in the range, if the range fits. -/
def slice? (s : Segment) (data : Bytes) : Option Bytes :=
  if s.Fits data then some (s.slice data) else none

/-- A range that fits cuts out as many bytes as it is long. -/
theorem length_slice {s : Segment} {data : Bytes} (h : s.Fits data) :
    (s.slice data).length = s.length := by
  obtain ⟨hle, hstop⟩ := h
  simp only [slice, length, List.length_take, List.length_drop]
  omega

end Segment

end Linewise
