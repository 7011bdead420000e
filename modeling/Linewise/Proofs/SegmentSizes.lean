import Linewise.Proofs.LineWidths
import Linewise.Proofs.PlanFences

/-!
# The sizes of segments

The division points of a plan lie at equal distances, and a fence lies less than one line
before its division point.  So two neighbouring fences are hardly more than one distance
apart, however many division points share a fence.  What the division leaves over is added
to the last segment.  If no line is longer than one distance, no two fences can stand at
the same place, and there are as many segments as parts.

* `fence_le`, `lt_fence_add_longestLine` — **a fence is near its division point**, on
  either side;
* `plan_segments_near_fair_share` — no segment is longer than its share and one line;
* `length_plan_of_short_lines` — **short lines leave no part without a segment.**
-/

namespace Linewise

variable {data : Bytes} {parts i stop target : Nat}

/-- From the boundary on there is one line only up to the division point, so the two are
less than the longest line apart. -/
theorem lt_boundary_add_longestLine (hstop : stop ≤ target + 1) (hlt : stop < data.length) :
    stop < boundary data target + longestLine data := by
  by_cases hle : boundary data target ≤ stop
  · have hplain : ∀ i, boundary data target ≤ i → i < stop → data[i]? ≠ some newline :=
      fun i hlow hup => not_newline_of_boundary_le hlow (by omega)
    have hwidth := length_lt_longestLine hle hlt hplain
    omega
  · omega

/-- A division point lies a whole piece before the end of the data. -/
theorem divisionPoint_add_le (length : Nat) (h : i < parts) :
    i * (length / parts) + length / parts ≤ length := by
  calc
    i * (length / parts) + length / parts = (i + 1) * (length / parts) :=
      (Nat.succ_mul _ _).symm
    _ ≤ parts * (length / parts) := Nat.mul_le_mul_right _ h
    _ ≤ length := Nat.mul_div_le length parts

/-- A fence lies at most one byte behind its division point. -/
theorem fence_le (data : Bytes) (h : i < max parts 1) :
    fence data parts i ≤ i * (data.length / parts) + 1 := by
  cases i with
  | zero => exact Nat.zero_le _
  | succ i =>
      rw [fence_succ_of_lt (by omega)]
      exact boundary_le data _

/-- **A fence is near its division point**: it lies less than one line before it. -/
theorem lt_fence_add_longestLine (hne : data ≠ []) (h : i < max parts 1) :
    i * (data.length / parts) < fence data parts i + longestLine data := by
  have hpos : 0 < data.length := List.length_pos_iff.mpr hne
  cases i with
  | zero =>
      have hsome : 0 - 0 < longestLine data :=
        length_lt_longestLine (Nat.le_refl 0) hpos fun i _ hlt => absurd hlt (Nat.not_lt_zero i)
      simpa [fence] using hsome
  | succ i =>
      have hparts : i + 1 < parts := by omega
      have hpoint := divisionPoint_add_le data.length hparts
      rw [fence_succ_of_lt hparts]
      apply lt_boundary_add_longestLine (Nat.le_succ _)
      rcases Nat.eq_zero_or_pos (data.length / parts) with hzero | hsize
      · rw [hzero, Nat.mul_zero]
        exact hpos
      · omega

/-- Two neighbouring fences are at most one piece and one line apart. -/
theorem fence_succ_le (hne : data ≠ []) (h : i + 1 < max parts 1) :
    fence data parts (i + 1) ≤
      fence data parts i + (data.length / parts + longestLine data) := by
  have hnear := lt_fence_add_longestLine hne (Nat.lt_of_succ_lt h)
  have hnext := fence_le data h
  rw [Nat.succ_mul] at hnext
  omega

/-- The last two fences are at most one piece, one line, and what the division leaves over
apart. -/
theorem fence_last_le (hne : data ≠ []) (h : i + 1 = max parts 1) :
    fence data parts (i + 1) ≤
      fence data parts i + (data.length / parts + data.length % parts + longestLine data) := by
  have hnear := lt_fence_add_longestLine hne (by omega : i < max parts 1)
  have hwhole := Nat.div_add_mod data.length parts
  rw [fence_of_le (by omega)]
  rcases Nat.eq_zero_or_pos parts with rfl | hparts
  · rw [Nat.mod_zero]
    omega
  · obtain rfl : parts = i + 1 := by omega
    rw [Nat.succ_mul] at hwhole
    omega

/-- **No segment is longer than its share and one line.**  The last segment may have in
addition what the division leaves over, and there is a last segment as soon as there is
a byte. -/
theorem plan_segments_near_fair_share (data : Bytes) (parts : Nat) :
    (∀ s ∈ (plan data parts).dropLast,
      s.length ≤ data.length / parts + longestLine data) ∧
      (∀ s, (plan data parts).getLast? = some s →
        s.length ≤ data.length / parts + data.length % parts + longestLine data) ∧
      (data ≠ [] → ∃ s, (plan data parts).getLast? = some s) := by
  obtain ⟨count, hcount⟩ : ∃ count, max parts 1 = count + 1 := ⟨max parts 1 - 1, by omega⟩
  have hplan := plan_eq_segmentsBetween data parts
  rw [hcount] at hplan
  have hne : plan data parts ≠ [] → data ≠ [] := mt (plan_eq_nil_iff data parts).mpr
  have hinner : ∀ s ∈ segmentsBetween (fence data parts) count, data ≠ [] →
      s.length ≤ data.length / parts + longestLine data := by
    intro s hs hdata
    obtain ⟨i, hi, -, rfl⟩ := mem_segmentsBetween.mp hs
    exact Nat.sub_le_iff_le_add'.mpr (fence_succ_le hdata (by omega))
  refine ⟨?_, ?_, ?_⟩
  · intro s hs
    have hdata := hne (List.ne_nil_of_mem (List.dropLast_subset _ hs))
    rw [hplan] at hs
    exact hinner s (mem_of_mem_dropLast_segmentsBetween hs) hdata
  · intro s hs
    have hdata := hne (List.ne_nil_of_mem (List.mem_of_getLast? hs))
    have hmem := List.mem_of_getLast? hs
    -- The stretch up to the last fence may be empty, and then an earlier segment is the last.
    rw [hplan, segmentsBetween_succ, List.mem_append, Segment.mem_between] at hmem
    rcases hmem with hearlier | ⟨-, rfl⟩
    · have hshare := hinner s hearlier hdata
      omega
    · exact Nat.sub_le_iff_le_add'.mpr (fence_last_le hdata hcount.symm)
  · intro hdata
    have hplanned : plan data parts ≠ [] := mt (plan_eq_nil_iff data parts).mp hdata
    exact ⟨_, List.getLast?_eq_some_getLast hplanned⟩

/-- Where each place is behind the one before, there is a segment each time. -/
theorem length_segmentsBetween {place : Nat → Nat} {count : Nat}
    (h : ∀ i, i < count → place i < place (i + 1)) :
    (segmentsBetween place count).length = count := by
  induction count with
  | zero => rfl
  | succ count ih =>
      have hearlier := ih fun i hi => h i (Nat.lt_succ_of_lt hi)
      have hlast := h count (Nat.lt_succ_self count)
      rw [segmentsBetween_succ, List.length_append, hearlier, Segment.between, if_pos hlast]
      rfl

/-- Short lines keep neighbouring fences apart: there is a newline between the one division
point and the next, and a byte behind the last of them. -/
theorem fence_lt_succ (hsize : 2 ≤ data.length / parts)
    (hshort : longestLine data ≤ data.length / parts) (h : i < parts) :
    fence data parts i < fence data parts (i + 1) := by
  have hbehind := fence_le data (by omega : i < max parts 1)
  have hpoint := divisionPoint_add_le data.length h
  by_cases hnext : i + 1 < parts
  · have hlater := divisionPoint_add_le data.length hnext
    rw [Nat.succ_mul] at hlater
    rw [fence_succ_of_lt hnext, Nat.succ_mul]
    have hnear : i * (data.length / parts) + data.length / parts + 1 <
        boundary data (i * (data.length / parts) + data.length / parts) + longestLine data :=
      lt_boundary_add_longestLine (Nat.le_refl _) (by omega)
    omega
  · rw [fence_of_le (Nat.not_lt.mp hnext)]
    omega

/-- **Short lines leave no part without a segment.**  The pieces must have two bytes at
least: with pieces of one byte the last division point may cut at the end of the data. -/
theorem length_plan_of_short_lines (hsize : 2 ≤ data.length / parts)
    (hshort : ∀ line ∈ wholeLines data, line.length ≤ data.length / parts) :
    (plan data parts).length = parts := by
  have hparts : 0 < parts := by
    rcases Nat.eq_zero_or_pos parts with rfl | hpos
    · rw [Nat.div_zero] at hsize
      omega
    · exact hpos
  have hmax : max parts 1 = parts := by omega
  rw [plan_eq_segmentsBetween, hmax]
  exact length_segmentsBetween fun i => fence_lt_succ hsize (longestLine_le_iff.mpr hshort)

/-- Three pieces of `"a\nb\n\ncd"`, with a division point on a newline and an open tail. -/
theorem length_plan_of_short_lines_before_an_open_tail :
    let data : Bytes := [97, 10, 98, 10, 10, 99, 100]
    2 ≤ data.length / 3 ∧ (∀ line ∈ wholeLines data, line.length ≤ data.length / 3) ∧
      (plan data 3).length = 3 ∧ plan data 3 = [⟨0, 2⟩, ⟨2, 5⟩, ⟨5, 7⟩] := by
  intro data
  have hsize : 2 ≤ data.length / 3 := by decide
  have hshort : ∀ line ∈ wholeLines data, line.length ≤ data.length / 3 := by decide
  exact ⟨hsize, hshort, length_plan_of_short_lines hsize hshort, by decide⟩

/-- Pieces of one byte are too small: the division point of two blank lines cuts at the end
of the data. -/
example : plan [10, 10] 2 = [⟨0, 2⟩] := by decide

end Linewise
