import Linewise.Plan

/-!
# Planning with limited numbers

A machine counts only so far.  A limited computation makes the same steps as the one that it
belongs to, in the same order, but it fails as soon as a number exceeds the limit, a difference
would be negative, or a range does not fit the bytes that it is to cut.

* `Limited.sum`, `Limited.product`, `Limited.difference` — the arithmetic;
* `Limited.cutFor`, `Limited.cuts` — what one division point does, and what they all do, up to
  the one that cuts at the end of the data;
* `Limited.plan` — the segments.  Room for all that there may be is set aside before.
-/

namespace Linewise

namespace Limited

/-- The sum, if it is within the limit. -/
def sum (limit a b : Nat) : Option Nat :=
  if a + b ≤ limit then some (a + b) else none

/-- The product, if it is within the limit. -/
def product (limit a b : Nat) : Option Nat :=
  if a * b ≤ limit then some (a * b) else none

/-- The difference, if it is not negative. -/
def difference (a b : Nat) : Option Nat :=
  if b ≤ a then some (a - b) else none

/-- The offset of the last newline. -/
def lastNewline? (bytes : Bytes) : Option Nat :=
  match lastBreak bytes.length bytes with
  | 0 => none
  | offset + 1 => some offset

/-- Where the `i`-th division point ends the segment that begins at `start`, if it does. -/
def cutFor (limit : Nat) (data : Bytes) (size start i : Nat) : Option (Option Nat) := do
  let target ← product limit i size
  if target < start then return none
  let behind ← sum limit target 1
  let window ← (Segment.mk start (min behind data.length)).slice? data
  match lastNewline? window with
  | none => return none
  | some offset =>
      let place ← sum limit start offset
      let stop ← sum limit place 1
      return some stop

/-- Visit division points.  One that cuts at the end of the data is the last. -/
def cuts (limit : Nat) (data : Bytes) (size : Nat) :
    List Nat → Nat → List Segment → Option (Nat × List Segment)
  | [], start, segments => some (start, segments)
  | i :: later, start, segments =>
      match cutFor limit data size start i with
      | none => none
      | some none => cuts limit data size later start segments
      | some (some stop) =>
          if stop = data.length then some (stop, ⟨start, stop⟩ :: segments)
          else cuts limit data size later stop (⟨start, stop⟩ :: segments)

/-- The bytes that a segment takes in memory. -/
def segmentWidth : Nat := 16

/-- The most bytes of memory that can be had in one piece. -/
def largestRoom : Nat := Nat.pow 2 63 - 1

/-- The segments of `data` for `parts` workers. -/
def plan (limit : Nat) (data : Bytes) (parts : Nat) : Option (List Segment) :=
  if data.isEmpty then some []
  else do
    let parts := max parts 1
    let _room ← product largestRoom segmentWidth parts
    let (start, segments) ←
      cuts limit data (data.length / parts) (List.range' 1 (parts - 1)) 0 []
    if start < data.length then return (⟨start, data.length⟩ :: segments).reverse
    return segments.reverse

section

variable {limit a b : Nat}

theorem sum_of_le (h : a + b ≤ limit) : sum limit a b = some (a + b) := if_pos h

theorem product_of_le (h : a * b ≤ limit) : product limit a b = some (a * b) := if_pos h

theorem difference_of_le (h : b ≤ a) : difference a b = some (a - b) := if_pos h

end

end Limited

end Linewise
