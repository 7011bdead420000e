import Linewise.Plan.Limited
import Linewise.Proofs.SegmentSizes

/-!
# The numbers in a plan

No number that comes up while a plan is made exceeds the length of the data.  The division
points lie before the end of the data, since one piece more would still fit behind each of
them, or else all of them lie at the first offset.  So a window that closes with the byte at
the division point never needs to be cut short, and a cut lies behind a byte of its window.

Once a cut lies at the end of the data, every division point lies before it, so nothing is
missed if no more of them are visited.

* `divisionPoint_lt` — the division points lie before the end of the data;
* `Limited.cutFor_of_lt`, `Limited.cutFor_of_le` — a point that is passed over, and the search
  at one that is not;
* `Limited.cutFor_eq` — **one division point** does not fail;
* `Limited.cuts_eq` — nor does any number of them;
* `Limited.plan_eq` — **the limited plan is the plan**, if the limit is no smaller than the
  length;
* `window_of_divisionPoint` — the windows that are searched.
-/

namespace Linewise

/-- **The division points lie before the end** of any data at all. -/
theorem divisionPoint_lt {length parts i : Nat} (hpos : 0 < length) (h : i < parts) :
    i * (length / parts) < length := by
  have hnext := divisionPoint_add_le length h
  rcases Nat.eq_zero_or_pos (length / parts) with hsize | hsize
  · rw [hsize, Nat.mul_zero]
    exact hpos
  · omega

namespace Progress

/-- Division points before the start of the segment are passed over, however many. -/
theorem foldl_advance_of_lt {targets : List Nat} {p : Progress}
    (h : ∀ target ∈ targets, target < p.start) : targets.foldl advance p = p := by
  induction targets with
  | nil => rfl
  | cons target targets ih =>
      have hskip : p.advance target = p := by
        rw [advance, if_pos (h target List.mem_cons_self)]
      rw [List.foldl_cons, hskip]
      exact ih fun later hlater => h later (List.mem_cons_of_mem _ hlater)

end Progress

namespace Limited

variable {limit : Nat} {data : Bytes} {size : Nat} {p : Progress}

/-- A window is searched as the bytes behind its start are, up to its end. -/
theorem lastNewline?_slice (data : Bytes) (start stop : Nat) :
    lastNewline? ((Segment.mk start stop).slice data) =
      match lastBreak (stop - start) (data.drop start) with
      | 0 => none
      | offset + 1 => some offset := by
  have hwindow : lastBreak ((Segment.mk start stop).slice data).length
      ((Segment.mk start stop).slice data) = lastBreak (stop - start) (data.drop start) := by
    rw [lastBreak_eq, lastBreak_eq, List.take_length]
    rfl
  cases hbreak : lastBreak (stop - start) (data.drop start) with
  | zero => simp [lastNewline?, hwindow, hbreak]
  | succ offset => simp [lastNewline?, hwindow, hbreak]

/-- A division point before the segment is passed over. -/
theorem cutFor_of_lt {start i : Nat} (hlimit : i * size ≤ limit) (hbefore : i * size < start) :
    cutFor limit data size start i = some none := by
  simp [cutFor, product_of_le hlimit, hbefore]

/-- Behind the start of the segment, the search is for the last newline up to the division
point: neither the offset behind the point nor its window is at fault. -/
theorem cutFor_of_le {start i : Nat} (hlimit : data.length ≤ limit)
    (htarget : i * size < data.length) (hle : start ≤ i * size) :
    cutFor limit data size start i =
      match lastBreak (i * size + 1 - start) (data.drop start) with
      | 0 => some none
      | width + 1 =>
          (sum limit start width).bind fun place =>
            (sum limit place 1).bind fun stop => some (some stop) := by
  have hproduct : product limit i size = some (i * size) := product_of_le (by omega)
  have hafter : ¬ i * size < start := Nat.not_lt.mpr hle
  have hbehind : sum limit (i * size) 1 = some (i * size + 1) := sum_of_le (by omega)
  have hmin : min (i * size + 1) data.length = i * size + 1 := Nat.min_eq_left htarget
  have hwindow : (Segment.mk start (i * size + 1)).slice? data =
      some ((Segment.mk start (i * size + 1)).slice data) :=
    if_pos ⟨Nat.le_succ_of_le hle, htarget⟩
  have hsearch := lastNewline?_slice data start (i * size + 1)
  cases hbreak : lastBreak (i * size + 1 - start) (data.drop start) with
  | zero =>
      rw [hbreak] at hsearch
      simp [cutFor, hproduct, hafter, hbehind, hmin, hwindow, hsearch]
  | succ width =>
      rw [hbreak] at hsearch
      simp [cutFor, hproduct, hafter, hbehind, hmin, hwindow, hsearch]

/-- **One division point** does what it does to the progress, without failing: it leaves the
progress as it is, or it cuts within the data. -/
theorem cutFor_eq (hlimit : data.length ≤ limit) (hsound : p.Sound data) {i : Nat}
    (htarget : i * size < data.length) :
    (cutFor limit data size p.start i = some none ∧ p.advance (i * size) = p) ∨
      ∃ width, cutFor limit data size p.start i = some (some (p.start + (width + 1))) ∧
        p.advance (i * size) = p.close (width + 1) ∧
        p.start + (width + 1) ≤ data.length := by
  rcases Nat.lt_or_ge (i * size) p.start with hbefore | hle
  · left
    refine ⟨cutFor_of_lt (by omega) hbefore, ?_⟩
    rw [Progress.advance, if_pos hbefore]
  · have hcut := cutFor_of_le hlimit htarget hle
    have hnext := (hsound.advance (i * size)).start_le
    rw [← hsound.unplanned_eq] at hcut
    rw [Progress.advance, if_neg (Nat.not_lt.mpr hle)] at hnext ⊢
    cases hbreak : lastBreak (i * size + 1 - p.start) p.unplanned with
    | zero =>
        rw [hbreak] at hcut
        exact Or.inl ⟨hcut, rfl⟩
    | succ width =>
        rw [hbreak] at hcut hnext
        have hstop : p.start + (width + 1) ≤ data.length := hnext
        have hplace : sum limit p.start width = some (p.start + width) := sum_of_le (by omega)
        have hbehind : sum limit (p.start + width) 1 = some (p.start + width + 1) :=
          sum_of_le (by omega)
        simp only [hplace, hbehind, Option.bind_some] at hcut
        exact Or.inr ⟨width, hcut, rfl, hstop⟩

/-- **Any number of division points** does what it does to the progress, without failing, also
if a cut at the end of the data makes the rest of them needless. -/
theorem cuts_eq (hlimit : data.length ≤ limit) {points : List Nat}
    (hpoints : ∀ i ∈ points, i * size < data.length) (hsound : p.Sound data) :
    cuts limit data size points p.start p.segments =
      some (((points.map (· * size)).foldl Progress.advance p).start,
        ((points.map (· * size)).foldl Progress.advance p).segments) := by
  induction points generalizing p with
  | nil => rfl
  | cons i later ih =>
      have hlater : ∀ j ∈ later, j * size < data.length :=
        fun j hj => hpoints j (List.mem_cons_of_mem _ hj)
      have hnext := hsound.advance (i * size)
      rw [List.map_cons, List.foldl_cons]
      obtain ⟨hnone, hsame⟩ | ⟨width, hcut, hclose, hle⟩ :=
        cutFor_eq hlimit hsound (hpoints i List.mem_cons_self)
      · rw [cuts, hnone, hsame]
        exact ih hlater hsound
      · rw [hclose] at hnext ⊢
        rw [cuts, hcut]
        by_cases hend : p.start + (width + 1) = data.length
        · -- The loop ends here, and the points that are left all lie before the cut.
          have hrest : (later.map (· * size)).foldl Progress.advance (p.close (width + 1)) =
              p.close (width + 1) := by
            apply Progress.foldl_advance_of_lt
            intro target htarget
            obtain ⟨j, hj, rfl⟩ := List.mem_map.mp htarget
            have hbefore := hlater j hj
            simp only [Progress.close]
            omega
          rw [hrest]
          simp [hend, Progress.close]
        · simp only [if_neg hend]
          exact ih hlater hnext

/-- **The limited plan is the plan**, if no number that the length does not exceed is too
large, and there is room for the segments. -/
theorem plan_eq {parts : Nat} (hlimit : data.length ≤ limit)
    (hroom : segmentWidth * max parts 1 ≤ largestRoom) :
    plan limit data parts = some (Linewise.plan data parts) := by
  cases hdata : data with
  | nil =>
      have hnone : Linewise.plan [] parts = [] := (plan_eq_nil_iff [] parts).mpr rfl
      rw [hnone]
      rfl
  | cons b bs =>
      rw [← hdata]
      have hpos : 0 < data.length := by simp [hdata]
      have hempty : data.isEmpty = false := by simp [hdata]
      have hpoints : ∀ i ∈ List.range' 1 (max parts 1 - 1),
          i * (data.length / max parts 1) < data.length := by
        intro i hi
        rw [List.mem_range'_1] at hi
        exact divisionPoint_lt hpos (by omega)
      let q := ((List.range' 1 (max parts 1 - 1)).map (· * (data.length / max parts 1))).foldl
        Progress.advance (Progress.begin data)
      have hsound : q.Sound data := (Progress.Sound.begin data).foldl _
      have hcuts : cuts limit data (data.length / max parts 1)
          (List.range' 1 (max parts 1 - 1)) 0 [] = some (q.start, q.segments) :=
        cuts_eq hlimit hpoints (Progress.Sound.begin data)
      -- Without a limit all division points are visited, also those behind the last cut.
      have hplan : Linewise.plan data parts = q.finish.segments.reverse := plan_eq_foldl data parts
      rw [hplan, hsound.finish_segments, Segment.between]
      by_cases hrest : q.start < data.length
      · simp [plan, hempty, product_of_le hroom, hcuts, hrest]
      · simp [plan, hempty, product_of_le hroom, hcuts, hrest]

/-- No smaller limit is enough for `"a\nb\n"` and four parts: the last division point lies on
the last byte. -/
example : plan 4 [97, 10, 98, 10] 4 = some [⟨0, 2⟩, ⟨2, 4⟩] ∧ plan 3 [97, 10, 98, 10] 4 = none := by
  decide

end Limited

/-- A planned segment can be cut out of the data. -/
theorem fits_of_mem_plan {data : Bytes} {parts : Nat} {s : Segment} (hs : s ∈ plan data parts) :
    s.Fits data := by
  obtain ⟨-, hlt, hstop⟩ := (plan_tiles data parts).bounds hs
  exact ⟨Nat.le_of_lt hlt, hstop⟩

/-- **The windows.**  The byte at a division point is one of the data, so the offset behind it
needs no lowering.  Unless a segment starts behind the point, its window begins at or before
the point and can be cut out of the data. -/
theorem window_of_divisionPoint {data : Bytes} {parts i : Nat} (hne : data ≠ [])
    (h : i < parts) (start : Nat) :
    let target := i * (data.length / parts)
    target + 1 ≤ data.length ∧ min (target + 1) data.length = target + 1 ∧
      (target < start ∨ start ≤ target ∧ (Segment.mk start (target + 1)).Fits data) := by
  intro target
  have hpoint : target + 1 ≤ data.length := divisionPoint_lt (List.length_pos_iff.mpr hne) h
  refine ⟨hpoint, Nat.min_eq_left hpoint, ?_⟩
  rcases Nat.lt_or_ge target start with hbefore | hle
  · exact Or.inl hbefore
  · exact Or.inr ⟨hle, Nat.le_succ_of_le hle, hpoint⟩

end Linewise
