import Linewise.Proofs.Boundaries

/-!
# A plan tiles its byte string

The segments of a plan lie end to end over the whole byte string, and each of them
begins and ends between two lines.  Neither depends on where the division points
lie or how many there are: `Progress.Sound` is kept by every division point,
whether it cuts or not, and what is left behind the last cut ends at the end of
the data.

* `Tiles` — segments that lie end to end, none of them empty;
* `Progress.Sound` — what holds of a plan all along;
* `Progress.Sound.advance` — one division point keeps it; `Progress.Sound.foldl` —
  so does any number of them;
* `plan_tiles`, `plan_stop`, `plan_start` — the tiling and its cuts;
* `Tiles.lines_eq` — **the lines of the pieces are the lines of the whole.**
-/

namespace Linewise

/-- The segments lie end to end from the first offset to the last, and none of them
is empty. -/
inductive Tiles : Nat → List Segment → Nat → Prop
  | nil (offset : Nat) : Tiles offset [] offset
  | cons {start mid stop : Nat} {later : List Segment} (nonempty : start < mid)
      (tail : Tiles mid later stop) : Tiles start (⟨start, mid⟩ :: later) stop

namespace Tiles

/-- A tiling runs forward. -/
theorem start_le_stop {start stop : Nat} {segments : List Segment}
    (h : Tiles start segments stop) : start ≤ stop := by
  induction h with
  | nil => exact Nat.le_refl _
  | cons nonempty tail ih => omega

/-- A tiling goes on with one more segment, if that is not empty. -/
theorem snoc {start mid stop : Nat} {segments : List Segment}
    (h : Tiles start segments mid) (nonempty : mid < stop) :
    Tiles start (segments ++ [⟨mid, stop⟩]) stop := by
  induction h with
  | nil offset => exact cons nonempty (nil stop)
  | cons first tail ih => exact cons first (ih nonempty)

/-- Every segment of a tiling is not empty and lies within its ends. -/
theorem bounds {start stop : Nat} {segments : List Segment} (h : Tiles start segments stop)
    {s : Segment} (hs : s ∈ segments) :
    start ≤ s.start ∧ s.start < s.stop ∧ s.stop ≤ stop := by
  induction h with
  | nil => cases hs
  | cons nonempty tail ih =>
      have hle := tail.start_le_stop
      rcases List.mem_cons.mp hs with rfl | hlater
      · exact ⟨Nat.le_refl _, nonempty, hle⟩
      · obtain ⟨hstart, hlt, hstop⟩ := ih hlater
        exact ⟨by omega, hlt, hstop⟩

/-- A tile starts where another one stops, unless it is the first. -/
theorem start_eq {start stop : Nat} {segments : List Segment} (h : Tiles start segments stop)
    {s : Segment} (hs : s ∈ segments) :
    s.start = start ∨ ∃ t ∈ segments, t.stop = s.start := by
  induction h with
  | nil => cases hs
  | @cons start mid stop later nonempty tail ih =>
      rcases List.mem_cons.mp hs with rfl | hlater
      · exact Or.inl rfl
      · right
        obtain hfirst | ⟨t, ht, hstop⟩ := ih hlater
        · exact ⟨⟨start, mid⟩, List.mem_cons_self, hfirst.symm⟩
        · exact ⟨t, List.mem_cons_of_mem _ ht, hstop⟩

/-- The segments of a tiling start one behind the other. -/
theorem ascending {start stop : Nat} {segments : List Segment}
    (h : Tiles start segments stop) :
    segments.Pairwise fun s t => s.start < t.start := by
  induction h with
  | nil => exact List.Pairwise.nil
  | cons nonempty tail ih =>
      refine List.pairwise_cons.mpr ⟨?_, ih⟩
      intro t ht
      exact Nat.lt_of_lt_of_le nonempty (tail.bounds ht).1

/-- A tiling has no segments if and only if it has nowhere to go. -/
theorem eq_nil_iff {start stop : Nat} {segments : List Segment}
    (h : Tiles start segments stop) : segments = [] ↔ start = stop := by
  cases h with
  | nil => exact ⟨fun _ => rfl, fun _ => rfl⟩
  | cons nonempty tail =>
      have hle := tail.start_le_stop
      constructor
      · intro hnil
        cases hnil
      · intro heq
        omega

end Tiles

namespace Segment

/-- A segment and what stands behind it are what stands from its start on. -/
theorem slice_append_drop {s : Segment} (h : s.start ≤ s.stop) (data : Bytes) :
    s.slice data ++ data.drop s.stop = data.drop s.start := by
  have hstop : s.stop = s.start + s.length := by
    unfold length
    omega
  rw [slice, hstop, ← List.drop_drop, List.take_append_drop]

/-- A segment that ends behind a newline has no open tail. -/
theorem hasOpenTail_slice {s : Segment} {data : Bytes} (hlt : s.start < s.stop)
    (h : BehindNewline data s.stop) : hasOpenTail (s.slice data) = false := by
  have hlen : (s.slice data).length = s.stop - s.start :=
    length_slice ⟨Nat.le_of_lt hlt, h.le_length⟩
  have hlast : (s.slice data).getLast? = some newline := by
    have hat : s.start + (s.stop - s.start - 1) = s.stop - 1 := by omega
    rw [List.getLast?_eq_getElem?, hlen, slice, List.getElem?_take_of_lt (by
      unfold length
      omega), List.getElem?_drop, hat]
    exact h.2
  rw [hasOpenTail_of_getLast? hlast]
  decide

end Segment

/-- **The lines of the pieces.**  If every tile stops at the end of the data or behind
a newline, the lines of the tiles are the lines of what is tiled. -/
theorem Tiles.lines_eq {data : Bytes} {start stop : Nat} {segments : List Segment}
    (h : Tiles start segments stop) (hend : stop = data.length)
    (hstop : ∀ s ∈ segments, s.stop = data.length ∨ BehindNewline data s.stop) :
    (segments.map fun s => lines (s.slice data)).flatten = lines (data.drop start) := by
  induction h with
  | nil offset => simp [hend]
  | @cons start mid stop later nonempty tail ih =>
      have hlater := ih hend fun s hs => hstop s (List.mem_cons_of_mem _ hs)
      have hsplit := Segment.slice_append_drop (s := ⟨start, mid⟩) (Nat.le_of_lt nonempty) data
      rw [List.map_cons, List.flatten_cons, hlater, ← hsplit]
      obtain hlast | hbehind := hstop ⟨start, mid⟩ List.mem_cons_self
      · -- Nothing follows the end of the data, so an open tail does no harm here.
        have hnil : data.drop mid = [] := List.drop_eq_nil_of_le (Nat.le_of_eq hlast.symm)
        simp [hnil]
      · exact (lines_append (Segment.hasOpenTail_slice nonempty hbehind) _).symm

namespace Progress

/-- What holds of a plan all along: its segments tile the bytes that are planned,
and every one of them ends behind a newline. -/
structure Sound (data : Bytes) (p : Progress) : Prop where
  unplanned_eq : p.unplanned = data.drop p.start
  start_le : p.start ≤ data.length
  tiles : Tiles 0 p.segments.reverse p.start
  behind : ∀ s ∈ p.segments, BehindNewline data s.stop

namespace Sound

variable {data : Bytes} {p : Progress}

/-- The state before the first division point is sound. -/
theorem begin (data : Bytes) : Sound data (begin data) where
  unplanned_eq := rfl
  start_le := Nat.zero_le _
  tiles := Tiles.nil 0
  behind := fun _ hs => nomatch hs

/-- With one more segment closed, the segments reach up to its end. -/
theorem tiles_close (h : Sound data p) {width : Nat} (hpos : 0 < width) :
    Tiles 0 (p.close width).segments.reverse (p.start + width) := by
  have hlt : p.start < p.start + width := by omega
  have hsnoc := h.tiles.snoc hlt
  simpa [close] using hsnoc

/-- A segment may be closed behind any newline. -/
theorem close (h : Sound data p) {width : Nat} (hpos : 0 < width)
    (hcut : BehindNewline data (p.start + width)) : Sound data (p.close width) := by
  refine ⟨?_, hcut.le_length, h.tiles_close hpos, ?_⟩
  · simp only [Progress.close, h.unplanned_eq, List.drop_drop]
  · intro s hs
    rcases List.mem_cons.mp hs with rfl | hearlier
    · exact hcut
    · exact h.behind s hearlier

/-- **One division point** cuts at its boundary or not at all. -/
theorem advance (h : Sound data p) (target : Nat) : Sound data (p.advance target) := by
  unfold Progress.advance
  split
  · exact h
  · split
    · exact h
    · next width hbreak =>
        rw [h.unplanned_eq, lastBreak_drop] at hbreak
        have hstop : boundary data target = p.start + (width + 1) := by omega
        have hcut := behindNewline_boundary (by omega : 0 < boundary data target)
        rw [hstop] at hcut
        exact h.close (Nat.succ_pos width) hcut

/-- Any number of division points keep the state sound. -/
theorem foldl (targets : List Nat) (h : Sound data p) :
    Sound data (targets.foldl Progress.advance p) := by
  induction targets generalizing p with
  | nil => exact h
  | cons target targets ih => exact ih (h.advance target)

/-- At the end the segments reach up to the end of the data. -/
theorem tiles_finish (h : Sound data p) :
    Tiles 0 p.finish.segments.reverse data.length := by
  have hlen : p.unplanned.length = data.length - p.start := by
    rw [h.unplanned_eq, List.length_drop]
  have hle := h.start_le
  unfold finish
  split
  · rename_i hempty
    have hnil : p.unplanned.length = 0 := by simpa using hempty
    have hend : p.start = data.length := by omega
    exact hend ▸ h.tiles
  · rename_i hrest
    have hpos : 0 < p.unplanned.length :=
      List.length_pos_iff.mpr (by simpa using hrest)
    have hend : p.start + p.unplanned.length = data.length := by omega
    exact hend ▸ h.tiles_close hpos

/-- Only the last segment may end without a newline. -/
theorem stop_finish (h : Sound data p) :
    ∀ s ∈ p.finish.segments, s.stop = data.length ∨ BehindNewline data s.stop := by
  have hle := h.start_le
  intro s hs
  unfold finish at hs
  split at hs
  · exact Or.inr (h.behind s hs)
  · rcases List.mem_cons.mp hs with rfl | hearlier
    · left
      simp only [h.unplanned_eq, List.length_drop]
      omega
    · exact Or.inr (h.behind s hearlier)

end Sound

/-- A division point closes one segment at most. -/
theorem length_segments_advance (p : Progress) (target : Nat) :
    (p.advance target).segments.length ≤ p.segments.length + 1 := by
  unfold advance
  split
  · exact Nat.le_succ _
  · split
    · exact Nat.le_succ _
    · exact Nat.le_refl _

/-- Division points close one segment each at most. -/
theorem length_segments_foldl (targets : List Nat) (p : Progress) :
    (targets.foldl advance p).segments.length ≤ p.segments.length + targets.length := by
  induction targets generalizing p with
  | nil => exact Nat.le_refl _
  | cons target targets ih =>
      have hstep := p.length_segments_advance target
      have hrest := ih (p.advance target)
      simp only [List.foldl_cons, List.length_cons]
      omega

/-- The end closes one segment at most. -/
theorem length_segments_finish (p : Progress) :
    p.finish.segments.length ≤ p.segments.length + 1 := by
  unfold finish
  split
  · exact Nat.le_succ _
  · exact Nat.le_refl _

end Progress

/-- There are fewer division points than parts. -/
theorem length_divisionPoints_lt {parts : Nat} (length : Nat) (h : 0 < parts) :
    (divisionPoints length parts).length < parts := by
  unfold divisionPoints
  split
  · split
    · next hparts => exact hparts
    · next hparts => exact h
  · rw [List.length_map, List.length_range']
    omega

/-- **A plan tiles its byte string.** -/
theorem plan_tiles (data : Bytes) (parts : Nat) : Tiles 0 (plan data parts) data.length :=
  ((Progress.Sound.begin data).foldl _).tiles_finish

/-- Every segment ends behind a newline or at the end of the data. -/
theorem plan_stop {data : Bytes} {parts : Nat} {s : Segment} (hs : s ∈ plan data parts) :
    s.stop = data.length ∨ BehindNewline data s.stop :=
  ((Progress.Sound.begin data).foldl _).stop_finish s (List.mem_reverse.mp hs)

/-- A planned segment starts at the first offset or behind a newline. -/
theorem plan_start {data : Bytes} {parts : Nat} {s : Segment} (hs : s ∈ plan data parts) :
    s.start = 0 ∨ BehindNewline data s.start := by
  have htiles := plan_tiles data parts
  obtain hfirst | ⟨t, ht, hstop⟩ := htiles.start_eq hs
  · exact Or.inl hfirst
  · right
    obtain ⟨-, hlt, hle⟩ := htiles.bounds hs
    obtain hend | hbehind := plan_stop ht
    · omega
    · exact hstop ▸ hbehind

/-- There are no more segments than parts. -/
theorem length_plan_le (data : Bytes) (parts : Nat) :
    (plan data parts).length ≤ max parts 1 := by
  have hparts : 0 < max parts 1 := by omega
  have hpoints := length_divisionPoints_lt data.length hparts
  have hfold := Progress.length_segments_foldl
    (divisionPoints data.length (max parts 1)) (Progress.begin data)
  have hfinish := ((divisionPoints data.length (max parts 1)).foldl Progress.advance
    (Progress.begin data)).length_segments_finish
  have hbegin : (Progress.begin data).segments.length = 0 := rfl
  rw [plan, List.length_reverse]
  omega

/-- Only the empty data has no segments. -/
theorem plan_eq_nil_iff (data : Bytes) (parts : Nat) : plan data parts = [] ↔ data = [] := by
  rw [(plan_tiles data parts).eq_nil_iff, eq_comm, List.length_eq_zero_iff]

/-- The lines of the segments are the lines of the data. -/
theorem lines_plan (data : Bytes) (parts : Nat) :
    ((plan data parts).map fun s => lines (s.slice data)).flatten = lines data :=
  (plan_tiles data parts).lines_eq rfl fun _ hs => plan_stop hs

/-- **A plan is well formed**, whatever the bytes and however many parts are asked
for: no part, or more parts than bytes, are no exception. -/
theorem plan_tiles_between_lines (data : Bytes) (parts : Nat) :
    (plan data parts).length ≤ max parts 1 ∧
      Tiles 0 (plan data parts) data.length ∧
      ((plan data parts).Pairwise fun s t => s.start < t.start) ∧
      (∀ s ∈ plan data parts,
        s.start < s.stop ∧
        (s.start = 0 ∨ BehindNewline data s.start) ∧
        (s.stop = data.length ∨ BehindNewline data s.stop)) ∧
      (plan data parts = [] ↔ data = []) := by
  have htiles := plan_tiles data parts
  refine ⟨length_plan_le data parts, htiles, htiles.ascending, ?_, plan_eq_nil_iff data parts⟩
  intro s hs
  exact ⟨(htiles.bounds hs).2.1, plan_start hs, plan_stop hs⟩

/-- The division points of `"ab\n\ncdefg"` for four parts are 2, 4 and 6.  The last of
them has no newline in its window, and what is left is one segment. -/
example : plan [97, 98, 10, 10, 99, 100, 101, 102, 103] 4 = [⟨0, 3⟩, ⟨3, 4⟩, ⟨4, 9⟩] := by
  decide

end Linewise
