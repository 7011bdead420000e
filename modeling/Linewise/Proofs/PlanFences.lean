import Mathlib.Order.Monotone.Basic
import Mathlib.Data.Nat.Find
import Linewise.Proofs.Boundaries
import Linewise.Proofs.PlanTiling

/-!
# The fences of a plan

A plan is made from left to right, and what a division point does depends on the cuts made
before it: the search for a newline stops at the last cut, a division point before that
cut is passed over, and one without a newline leaves no trace.  But the segments can be
given without such a history.  Put a fence at the first offset, at the boundary of each
division point, and at the end of the data.  Some fences stand at the same place.  The
segments are the stretches between one fence and the next, as far as they hold a byte.

* `fence` — the places, with `fence_mono`: they are in order;
* `Progress.Sound.advance_eq` — what one division point does, by its boundary alone;
* `start_afterPoints` — **after any number of division points** the plan has come to the
  fence of the last one;
* `plan_eq_segmentsBetween` — the plan without its history;
* `plan_cuts_at_boundaries` — **where a plan cuts.**
-/

namespace Linewise

/-- The segment from one offset to another, if it holds a byte. -/
def Segment.between (start stop : Nat) : List Segment :=
  if start < stop then [⟨start, stop⟩] else []

/-- The segments from each of `count` places to the next, as far as they hold a byte. -/
def segmentsBetween (place : Nat → Nat) (count : Nat) : List Segment :=
  (List.range count).flatMap fun i => Segment.between (place i) (place (i + 1))

/-- The fences of a plan: the first offset, the boundary of each division point, and from
there on the end of the data. -/
def fence (data : Bytes) (parts i : Nat) : Nat :=
  if i = 0 then 0
  else if i < parts then boundary data (i * (data.length / parts))
  else data.length

/-- Two places have one segment between them if the second lies behind the first. -/
theorem Segment.mem_between {start stop : Nat} {s : Segment} :
    s ∈ between start stop ↔ start < stop ∧ s = ⟨start, stop⟩ := by
  unfold between
  split <;> simp_all

@[simp] theorem Segment.reverse_between (start stop : Nat) :
    (between start stop).reverse = between start stop := by
  unfold between
  split <;> rfl

section

variable {place : Nat → Nat} {count : Nat}

theorem segmentsBetween_succ (place : Nat → Nat) (count : Nat) :
    segmentsBetween place (count + 1) =
      segmentsBetween place count ++ Segment.between (place count) (place (count + 1)) := by
  simp [segmentsBetween, List.range_succ, List.flatMap_append]

/-- The segments lie between neighbouring places that are apart. -/
theorem mem_segmentsBetween {s : Segment} : s ∈ segmentsBetween place count ↔
    ∃ i, i < count ∧ place i < place (i + 1) ∧ s = ⟨place i, place (i + 1)⟩ := by
  simp [segmentsBetween, List.mem_flatMap, Segment.mem_between]

/-- The segment to the last place is the last one, if there is one. -/
theorem mem_of_mem_dropLast_segmentsBetween {s : Segment}
    (h : s ∈ (segmentsBetween place (count + 1)).dropLast) :
    s ∈ segmentsBetween place count := by
  rw [segmentsBetween_succ, Segment.between] at h
  split at h
  · rwa [List.dropLast_concat] at h
  · rw [List.append_nil] at h
    exact List.dropLast_subset _ h

/-- If the places are in order, the segments stop at all of them but the first. -/
theorem exists_stop_segmentsBetween_iff (hmono : Monotone place) {offset : Nat} :
    (∃ s ∈ segmentsBetween place count, s.stop = offset) ↔
      offset ≠ place 0 ∧ ∃ i, i ≤ count ∧ place i = offset := by
  constructor
  · rintro ⟨s, hs, rfl⟩
    obtain ⟨i, hlt, hne, rfl⟩ := mem_segmentsBetween.mp hs
    have hfirst : place 0 ≤ place i := hmono (Nat.zero_le i)
    exact ⟨by simp only; omega, i + 1, hlt, rfl⟩
  · rintro ⟨hne, hexists⟩
    -- Of the indices with this place, the least has another place before it.
    obtain ⟨hle, hat⟩ := Nat.find_spec hexists
    have hleast : ∀ j, j < Nat.find hexists → ¬ (j ≤ count ∧ place j = offset) :=
      fun j hj => Nat.find_min hexists hj
    generalize Nat.find hexists = i at hle hat hleast
    cases i with
    | zero => exact absurd hat.symm hne
    | succ i =>
        have hstep : place i ≤ place (i + 1) := hmono (Nat.le_succ i)
        have hother : place i ≠ offset := fun h => hleast i (by omega) ⟨by omega, h⟩
        refine ⟨⟨place i, place (i + 1)⟩, mem_segmentsBetween.mpr ⟨i, ?_, ?_, rfl⟩, hat⟩
        · omega
        · omega

/-- Where the places no longer move on, there are no more segments. -/
theorem segmentsBetween_eq_of_le (hmono : Monotone place) {total : Nat} (hle : count ≤ total)
    (hend : place total ≤ place count) :
    segmentsBetween place total = segmentsBetween place count := by
  induction total, hle using Nat.le_induction with
  | base => rfl
  | succ total hle ih =>
      have hlast : place total ≤ place (total + 1) := hmono (Nat.le_succ total)
      have hempty : ¬ place total < place (total + 1) := by
        have hfirst : place count ≤ place total := hmono hle
        omega
      rw [segmentsBetween_succ, ih (by omega), Segment.between, if_neg hempty, List.append_nil]

end

theorem fence_succ_of_lt {data : Bytes} {parts i : Nat} (h : i + 1 < parts) :
    fence data parts (i + 1) = boundary data ((i + 1) * (data.length / parts)) := by
  rw [fence, if_neg (Nat.succ_ne_zero i), if_pos h]

theorem fence_of_le {data : Bytes} {parts i : Nat} (h : parts ≤ i + 1) :
    fence data parts (i + 1) = data.length := by
  rw [fence, if_neg (Nat.succ_ne_zero i), if_neg (Nat.not_lt.mpr h)]

/-- No fence lies behind the end of the data. -/
theorem fence_le_length (data : Bytes) (parts i : Nat) :
    fence data parts i ≤ data.length := by
  unfold fence
  split
  · exact Nat.zero_le _
  · split
    · exact boundary_le_length data _
    · exact Nat.le_refl _

/-- **The fences are in order**, because the division points are. -/
theorem fence_mono (data : Bytes) (parts : Nat) : Monotone (fence data parts) := by
  apply monotone_nat_of_le_succ
  intro i
  by_cases hnext : i + 1 < parts
  · cases i with
    | zero => exact Nat.zero_le _
    | succ i =>
        rw [fence_succ_of_lt hnext, fence_succ_of_lt (Nat.lt_of_succ_lt hnext)]
        exact boundary_mono data (Nat.mul_le_mul_right _ (Nat.le_succ (i + 1)))
  · rw [fence_of_le (Nat.not_lt.mp hnext)]
    exact fence_le_length data parts i

namespace Progress

/-- **One division point** moves the plan on to its boundary, and closes the segment that
ends there unless it would be empty. -/
theorem Sound.advance_eq {data : Bytes} {p : Progress} (h : Sound data p) (target : Nat) :
    (p.advance target).start = max p.start (boundary data target) ∧
      (p.advance target).segments =
        Segment.between p.start (boundary data target) ++ p.segments := by
  have hbound := boundary_le data target
  have hsearch := lastBreak_drop data p.start target
  rw [← h.unplanned_eq] at hsearch
  by_cases hcut : p.start < boundary data target
  · obtain ⟨width, hwidth⟩ : ∃ width, boundary data target - p.start = width + 1 :=
      ⟨boundary data target - p.start - 1, by omega⟩
    have hstop : p.start + (width + 1) = boundary data target := by omega
    have hnear : ¬ target < p.start := by omega
    rw [Progress.advance, if_neg hnear, hsearch, hwidth, Segment.between, if_pos hcut]
    simp only [Progress.close, hstop]
    exact ⟨by omega, rfl⟩
  · have hsame : p.advance target = p := by
      have hnone : boundary data target - p.start = 0 := by omega
      rw [Progress.advance, hsearch, hnone]
      split <;> rfl
    rw [hsame, Segment.between, if_neg hcut]
    exact ⟨by omega, rfl⟩

/-- The end closes the segment that is left, if one is. -/
theorem Sound.finish_segments {data : Bytes} {p : Progress} (h : Sound data p) :
    p.finish.segments = Segment.between p.start data.length ++ p.segments := by
  have hle := h.start_le
  have hleft : p.unplanned.length = data.length - p.start := by
    rw [h.unplanned_eq, List.length_drop]
  unfold finish
  split
  · next hempty =>
      have hnone : ¬ p.start < data.length := by
        rw [List.isEmpty_iff.mp hempty, List.length_nil] at hleft
        omega
      rw [Segment.between, if_neg hnone]
      rfl
  · next hrest =>
      have hpos : 0 < p.unplanned.length := List.length_pos_iff.mpr (by simpa using hrest)
      have hsome : p.start < data.length := by omega
      have hstop : p.start + p.unplanned.length = data.length := by omega
      rw [Segment.between, if_pos hsome]
      simp only [Progress.close, hstop]
      rfl

end Progress

/-- What the first `count` division points make of a plan. -/
def afterPoints (data : Bytes) (parts count : Nat) : Progress :=
  ((List.range' 1 count).map (· * (data.length / parts))).foldl Progress.advance
    (Progress.begin data)

theorem afterPoints_succ (data : Bytes) (parts count : Nat) :
    afterPoints data parts (count + 1) =
      (afterPoints data parts count).advance ((count + 1) * (data.length / parts)) := by
  rw [afterPoints, List.range'_1_concat, List.map_append, List.foldl_append, Nat.add_comm 1]
  rfl

theorem sound_afterPoints (data : Bytes) (parts count : Nat) :
    Progress.Sound data (afterPoints data parts count) :=
  (Progress.Sound.begin data).foldl _

/-- **After any number of division points** the plan has come to the fence of the last
one, and its segments are those between the fences so far. -/
theorem start_afterPoints (data : Bytes) {parts count : Nat} (h : count < max parts 1) :
    (afterPoints data parts count).start = fence data parts count ∧
      (afterPoints data parts count).segments.reverse =
        segmentsBetween (fence data parts) count := by
  induction count with
  | zero => exact ⟨rfl, rfl⟩
  | succ count ih =>
      have hparts : count + 1 < parts := by omega
      have hsound := sound_afterPoints data parts count
      obtain ⟨hstart, hsegments⟩ := ih (by omega)
      obtain ⟨hnext, hclosed⟩ := hsound.advance_eq ((count + 1) * (data.length / parts))
      rw [← fence_succ_of_lt hparts, hstart] at hnext hclosed
      rw [afterPoints_succ]
      constructor
      · rw [hnext]
        exact Nat.max_eq_right (fence_mono data parts (Nat.le_succ count))
      · rw [hclosed, List.reverse_append, hsegments, Segment.reverse_between,
          segmentsBetween_succ]

/-- **The plan without its history.** -/
theorem plan_eq_segmentsBetween (data : Bytes) (parts : Nat) :
    plan data parts = segmentsBetween (fence data parts) (max parts 1) := by
  obtain ⟨count, hcount⟩ : ∃ count, max parts 1 = count + 1 := ⟨max parts 1 - 1, by omega⟩
  have hplan : plan data parts = (afterPoints data parts count).finish.segments.reverse := by
    rcases Nat.eq_zero_or_pos parts with rfl | hpos
    · have hnone : count = 0 := by omega
      rw [plan_eq_foldl, hnone]
      rfl
    · have hmax : max (count + 1) 1 = count + 1 := by omega
      obtain rfl : parts = count + 1 := by omega
      rw [plan_eq_foldl, hmax, Nat.add_sub_cancel]
      rfl
  obtain ⟨hstart, hsegments⟩ := start_afterPoints data (by omega : count < max parts 1)
  rw [hplan, (sound_afterPoints data parts count).finish_segments, List.reverse_append,
    hsegments, Segment.reverse_between, hstart, hcount, segmentsBetween_succ,
    fence_of_le (by omega : parts ≤ count + 1)]

/-- A planner may stop as soon as it has come to the end of the data: the division points
that it leaves out make no difference. -/
theorem plan_eq_of_start_eq_length {data : Bytes} {parts count : Nat} (h : count < max parts 1)
    (hend : (afterPoints data parts count).start = data.length) :
    plan data parts = (afterPoints data parts count).segments.reverse := by
  obtain ⟨hstart, hsegments⟩ := start_afterPoints data h
  rw [hsegments, plan_eq_segmentsBetween]
  apply segmentsBetween_eq_of_le (fence_mono data parts) (Nat.le_of_lt h)
  rw [← hstart, hend]
  exact fence_le_length data parts _

/-- **Where a plan cuts.**  The boundary of an offset lies one past the last newline up to
it, and at the first offset if there is none.  The places at which the segments of a plan
stop, apart from the end of the data, are the boundaries of the division points, apart from
the two ends.  None of them depends on the cuts made before, and to stop as soon as the end
of the data is reached gives the same plan. -/
theorem plan_cuts_at_boundaries (data : Bytes) (parts : Nat) :
    (∀ target cut, boundary data target = cut ↔
      (cut = 0 ∨ BehindNewline data cut) ∧ cut ≤ target + 1 ∧
        ∀ i, cut ≤ i → i ≤ target → data[i]? ≠ some newline) ∧
      (∀ offset, (offset ≠ data.length ∧ ∃ s ∈ plan data parts, s.stop = offset) ↔
        offset ≠ 0 ∧ offset ≠ data.length ∧
          ∃ i, 1 ≤ i ∧ i < parts ∧ boundary data (i * (data.length / parts)) = offset) ∧
      ∀ count, count < max parts 1 → (afterPoints data parts count).start = data.length →
        plan data parts = (afterPoints data parts count).segments.reverse := by
  refine ⟨fun target cut => boundary_eq_iff, ?_, fun count => plan_eq_of_start_eq_length⟩
  intro offset
  rw [plan_eq_segmentsBetween, exists_stop_segmentsBetween_iff (fence_mono data parts)]
  constructor
  · rintro ⟨hinner, hne, i, hle, rfl⟩
    refine ⟨hne, hinner, ?_⟩
    cases i with
    | zero => exact absurd rfl hne
    | succ i =>
        by_cases hlt : i + 1 < parts
        · exact ⟨i + 1, by omega, hlt, (fence_succ_of_lt hlt).symm⟩
        · exact absurd (fence_of_le (Nat.not_lt.mp hlt)) hinner
  · rintro ⟨hne, hinner, i, hone, hlt, rfl⟩
    obtain ⟨i, rfl⟩ : ∃ j, i = j + 1 := ⟨i - 1, by omega⟩
    exact ⟨hinner, hne, i + 1, by omega, fence_succ_of_lt hlt⟩

/-- Of the division points 1, 2, 3 and 4 of `"ab\n\ncd"` the first has no newline before
it, and the others have their boundaries at 3, 4 and 4. -/
example :
    (List.range 6).map (fence [97, 98, 10, 10, 99, 100] 5) = [0, 0, 3, 4, 4, 6] ∧
      plan [97, 98, 10, 10, 99, 100] 5 = [⟨0, 3⟩, ⟨3, 4⟩, ⟨4, 6⟩] := by
  decide

end Linewise
