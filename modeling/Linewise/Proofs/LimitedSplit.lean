import Mathlib.Algebra.Order.BigOperators.Group.List
import Mathlib.Algebra.Order.Group.Nat
import Linewise.Proofs.LimitedPlan
import Linewise.Proofs.LimitedScan
import Linewise.Proofs.LineCounts

/-!
# The numbers in a split

What the workers of a split report is added up by the caller, and what they count without a
visitor is added up on the way, by whoever has two numbers at hand.  All of these sums are
numbers of lines of some of the pieces.  The lines of all pieces are the lines of the whole,
and of those there are no more than bytes.

* `Limited.deliver_eq`, `Limited.pieces_eq` — no worker fails, and each gets its piece;
* `Limited.splitIndexed_eq` — **a split does not fail**, whatever the workers report;
* `Sharing.count_eq` — **nor does a count**, however the pieces are shared out;
* `no_number_exceeds_the_length` — **no arithmetic is at fault and no range**, be it in a plan,
  in a scan, in a split or in a count.
-/

namespace Linewise

variable {ε π : Type}

/-- A walk over a list fails only where one of its steps does. -/
theorem mapM_eq_some_map {α β : Type} {f : α → Option β} {g : α → β} {xs : List α}
    (h : ∀ x ∈ xs, f x = some (g x)) : xs.mapM f = some (xs.map g) := by
  induction xs with
  | nil => rfl
  | cons x xs ih =>
      rw [List.mapM_cons, h x List.mem_cons_self,
        ih fun y hy => h y (List.mem_cons_of_mem _ hy)]
      rfl

/-! ## What the workers report -/

/-- The lines that a worker reports, none if it was stopped. -/
def Outcome.reported : Outcome ε π → Nat
  | done count => count
  | failed _ => 0
  | aborted _ => 0

/-- A visit reports no more lines than there are. -/
theorem Visited.reported_le {reply : Nat → Bytes → Reply ε π} {ls : List Bytes}
    {d : Delivery ε π} (h : Visited reply ls d) : d.outcome.reported ≤ ls.length := by
  cases h with
  | through all => exact Nat.le_refl _
  | failed split earlier last => exact Nat.zero_le _
  | aborted split earlier last => exact Nat.zero_le _

/-- What the caller adds up is what the workers report. -/
theorem sum_results (outcomes : List (Outcome ε π)) :
    ((outcomes.filterMap Outcome.result?).filterMap Except.toOption).sum =
      (outcomes.map Outcome.reported).sum := by
  induction outcomes with
  | nil => rfl
  | cons o outcomes ih =>
      rw [List.map_cons, List.sum_cons, ← ih]
      cases o with
      | done count => rfl
      | failed error =>
          rw [Outcome.reported, Nat.zero_add]
          rfl
      | aborted payload =>
          rw [Outcome.reported, Nat.zero_add]
          rfl

/-- **The workers report** no more lines than there are bytes, all together. -/
theorem sum_reported_le (data : Bytes) (opts : Options) (rule : SegmentRule ε π) :
    (((deliveries data opts rule).map Delivery.outcome).map Outcome.reported).sum ≤
      data.length := by
  rw [deliveries, List.mapIdx_eq_zipIdx_map, List.map_map, List.map_map]
  calc
    ((pieces data opts).zipIdx.map
        (Outcome.reported ∘ Delivery.outcome ∘ fun p => deliver (rule p.2) p.1)).sum
      ≤ ((pieces data opts).zipIdx.map (List.length ∘ lines ∘ Prod.fst)).sum :=
        List.sum_le_sum fun p _ => (deliver_visited (rule p.2) p.1).reported_le
    _ = (lines data).length := by
      rw [← List.map_map, ← List.map_map, List.zipIdx_map_fst, ← List.length_flatten,
        lines_pieces]
    _ ≤ data.length := length_lines_le data

/-- No piece is longer than the data. -/
theorem length_le_of_mem_pieces {data piece : Bytes} {opts : Options}
    (h : piece ∈ pieces data opts) : piece.length ≤ data.length := by
  unfold pieces at h
  split at h
  · rw [List.mem_singleton.mp h]
  · obtain ⟨s, hs, rfl⟩ := List.mem_map.mp h
    have hfits := fits_of_mem_plan hs
    rw [Segment.length_slice hfits]
    exact Nat.le_trans (Nat.sub_le _ _) hfits.2

namespace Limited

variable {limit : Nat} {data : Bytes}

/-- A limited worker does not fail on a piece within the limit. -/
theorem deliver_eq {piece : Bytes} (h : piece.length ≤ limit)
    (reply : Nat → Bytes → Reply ε π) :
    deliver limit reply piece = some (Linewise.deliver reply piece).outcome := by
  rw [deliver, forEach_eq_of_over h (Scanner.over_ofBytes piece)]
  rfl

/-- **Each worker gets its piece.** -/
theorem pieces_eq (h : data.length ≤ limit) (opts : Options) :
    pieces limit data opts = some (Linewise.pieces data opts) := by
  unfold pieces Linewise.pieces
  split
  · rfl
  · have hthreads := opts.threads_le_eight
    have hroom : segmentWidth * max opts.threads 1 ≤ largestRoom := by
      calc
        segmentWidth * max opts.threads 1 ≤ segmentWidth * 8 :=
          Nat.mul_le_mul_left _ (by omega)
        _ ≤ largestRoom := by decide
    rw [plan_eq h hroom, Option.bind_some]
    apply mapM_eq_some_map
    intro s hs
    exact if_pos (fits_of_mem_plan hs)

/-- **Adding results up** fails only if the sum of them all is too large. -/
theorem total_eq {sum : Nat} {results : List (Except ε Nat)}
    (h : sum + (results.filterMap Except.toOption).sum ≤ limit) :
    (total limit sum results : Option (Outcome ε π)) = some (Tally.total sum results) := by
  induction results generalizing sum with
  | nil => rfl
  | cons result later ih =>
      cases result with
      | error error => rfl
      | ok more =>
          change sum + (more + (later.filterMap Except.toOption).sum) ≤ limit at h
          rw [total, sum_of_le (by omega), Option.bind_some, ih (by omega)]
          rfl

/-- **A split does not fail**, whatever the workers report. -/
theorem splitIndexed_eq (h : data.length ≤ limit) (opts : Options) (rule : SegmentRule ε π) :
    splitIndexed limit data opts rule = some (Linewise.splitIndexed data opts rule) := by
  have hworkers : ((Linewise.pieces data opts).zipIdx.mapM fun p =>
      deliver limit (rule p.2) p.1) =
        some ((deliveries data opts rule).map Delivery.outcome) := by
    rw [deliveries, List.mapIdx_eq_zipIdx_map, List.map_map]
    apply mapM_eq_some_map
    rintro ⟨piece, index⟩ hmem
    have hpiece : piece ∈ Linewise.pieces data opts := List.fst_mem_of_mem_zipIdx hmem
    exact deliver_eq (Nat.le_trans (length_le_of_mem_pieces hpiece) h) (rule index)
  have hsum := sum_reported_le data opts rule
  rw [← sum_results] at hsum
  rw [Linewise.splitIndexed, join_eq, splitIndexed, pieces_eq h]
  simp only [Option.bind_eq_bind, Option.bind_some, hworkers, Tally.foldl_add]
  simp only [Tally.empty, List.append_nil, List.reverse_reverse, Option.none_or]
  cases ((deliveries data opts rule).map Delivery.outcome).findSome? Outcome.payload? with
  | some payload => rfl
  | none => exact total_eq (by omega)

/-- **The lines of one piece.** -/
theorem lineCount_eq {piece : Bytes} (h : Linewise.lineCount piece ≤ limit) :
    lineCount limit piece = some (Linewise.lineCount piece) := sum_of_le h

end Limited

namespace Sharing

variable {limit : Nat}

/-- Counting pieces one after the other fails only if they have too many lines. -/
theorem foldlM_lineCount {parts : List Bytes} {total : Nat}
    (h : total + (parts.map lineCount).sum ≤ limit) :
    parts.foldlM (fun total piece =>
        (Limited.lineCount limit piece).bind (Limited.sum limit total)) total =
      some (total + (parts.map lineCount).sum) := by
  induction parts generalizing total with
  | nil => rfl
  | cons piece parts ih =>
      rw [List.map_cons, List.sum_cons] at h ⊢
      have hcount : Limited.lineCount limit piece = some (lineCount piece) :=
        Limited.lineCount_eq (by omega)
      have hsum : Limited.sum limit total (lineCount piece) = some (total + lineCount piece) :=
        Limited.sum_of_le (by omega)
      rw [List.foldlM_cons, hcount, Option.bind_some, hsum, Option.bind_eq_bind,
        Option.bind_some, ih (by omega), Nat.add_assoc]

/-- **A count does not fail**, however the pieces are shared out, if they do not have too many
lines. -/
theorem count_eq {sharing : Sharing} (h : (sharing.pieces.map lineCount).sum ≤ limit) :
    sharing.count limit = some (sharing.pieces.map lineCount).sum := by
  induction sharing with
  | run parts =>
      rw [pieces, ← Nat.zero_add (parts.map lineCount).sum] at h ⊢
      exact foldlM_lineCount h
  | halves left right ihLeft ihRight =>
      rw [pieces, List.map_append, List.sum_append] at h ⊢
      rw [count, ihLeft (by omega), ihRight (by omega)]
      exact Limited.sum_of_le h

end Sharing

/-- The counts of the pieces add up to the count of the data. -/
theorem sum_lineCount_pieces (data : Bytes) (opts : Options) :
    ((pieces data opts).map lineCount).sum = countLines data opts := by
  rw [sum_lineCount, lines_pieces, countLines_eq_length_lines]

/-- There are no more lines than bytes. -/
theorem lineCount_le (data : Bytes) : lineCount data ≤ data.length := by
  rw [lineCount_eq_length_lines]
  exact length_lines_le data

/-- **No number exceeds the length of the data**, so no arithmetic is at fault and no range,
however far a machine counts: it need only count up to the length.

The plan is made without fault, whatever the number of parts, if there is room for so many
segments.  Every multiple of the piece size that is visited lies before the end of the data,
so the offset behind it needs no lowering; and unless the last cut lies behind it, it closes a
window that begins at that cut and can be cut out of the data.  A planned segment has a length,
and can be cut out too.  A scan goes on without fault after any operations, and hands over what
remains to any visitor.  And no number of lines is too large, be it counted or added up, by a
visit, by the workers of a split and its caller, or by helpers in any order. -/
theorem no_number_exceeds_the_length {σ ε π : Type} {data : Bytes} {parts limit : Nat}
    (hlimit : data.length ≤ limit)
    (hroom : Limited.segmentWidth * parts ≤ Limited.largestRoom) :
    Limited.plan limit data parts = some (plan data parts) ∧
      (data ≠ [] → ∀ i, 1 ≤ i → i < parts →
        let target := i * (data.length / parts)
        let start := (afterPoints data parts (i - 1)).start
        target + 1 ≤ data.length ∧ min (target + 1) data.length = target + 1 ∧
          (target < start ∨ start ≤ target ∧ (Segment.mk start (target + 1)).Fits data)) ∧
      (∀ s ∈ plan data parts, Limited.difference s.stop s.start = some s.length ∧
        s.slice? data = some (s.slice data)) ∧
      (∀ ops : List (Operation π),
        let s := (Scanner.ofBytes data).run ops
        (∀ offset, s.position = some offset → offset ≤ data.length) ∧
          Limited.getline limit s = some s.getline ∧
          ∀ (visit : Visitor σ ε π) (state : σ),
            Limited.forEach limit visit 0 state s = some (s.forEach visit state)) ∧
      (∀ (opts : Options) (rule : SegmentRule ε π),
        Limited.splitIndexed limit data opts rule = some (splitIndexed data opts rule)) ∧
      (∀ (opts : Options) (sharing : Sharing), sharing.pieces = pieces data opts →
        sharing.count limit = some (countLines data opts)) ∧
      Limited.lineCount limit data = some (lineCount data) ∧
      lineCount data = (Scanner.ofBytes data).rest.length ∧ lineCount data ≤ data.length := by
  have hparts : Limited.segmentWidth * max parts 1 ≤ Limited.largestRoom := by
    rcases Nat.eq_zero_or_pos parts with rfl | hpos
    · decide
    · rwa [Nat.max_eq_left hpos]
  refine ⟨Limited.plan_eq hlimit hparts, ?_, ?_, ?_, ?_, ?_, ?_, ?_, lineCount_le data⟩
  · intro hne i hone hlt
    exact window_of_divisionPoint hne hlt (afterPoints data parts (i - 1)).start
  · intro s hs
    have hfits := fits_of_mem_plan hs
    exact ⟨Limited.difference_of_le hfits.1, if_pos hfits⟩
  · intro ops s
    have hover : s.Over data := 
      (Scanner.asks_run (Scanner.ofBytes data) ops).stays_over (Scanner.over_ofBytes data)
    refine ⟨fun offset hoffset => hover.position_le hoffset,
      Limited.getline_eq hlimit hover, ?_⟩
    intro visit state
    exact Limited.forEach_eq_of_over hlimit hover visit state
  · intro opts rule
    exact Limited.splitIndexed_eq hlimit opts rule
  · intro opts sharing hpieces
    have hsum := sum_lineCount_pieces data opts
    have hle : countLines data opts ≤ limit := by
      rw [countLines_eq_length_lines]
      exact Nat.le_trans (length_lines_le data) hlimit
    rw [← hsum, ← hpieces] at hle ⊢
    exact Sharing.count_eq hle
  · exact Limited.lineCount_eq (Nat.le_trans (lineCount_le data) hlimit)
  · rw [Scanner.rest_ofBytes, lineCount_eq_length_lines]

/-- Of the division points 1, 2 and 3 of `"a\nb\n"` the last lies on its last byte. -/
theorem no_number_exceeds_the_length_up_to_the_last_byte :
    let data : Bytes := [97, 10, 98, 10]
    data.length ≤ 4 ∧ Limited.segmentWidth * 4 ≤ Limited.largestRoom ∧
      Limited.plan 4 data 4 = some [⟨0, 2⟩, ⟨2, 4⟩] ∧
      3 * (data.length / 4) + 1 ≤ data.length := by
  intro data
  have hlimit : data.length ≤ 4 := by decide
  have hroom : Limited.segmentWidth * 4 ≤ Limited.largestRoom := by decide
  obtain ⟨hplan, hpoints, -⟩ :=
    @no_number_exceeds_the_length Unit Unit Unit data 4 4 hlimit hroom
  have hsegments : plan data 4 = [⟨0, 2⟩, ⟨2, 4⟩] := by decide
  rw [hsegments] at hplan
  exact ⟨hlimit, hroom, hplan, (hpoints (by decide) 3 (by decide) (by decide)).1⟩

end Linewise
