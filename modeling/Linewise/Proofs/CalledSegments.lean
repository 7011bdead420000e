import Mathlib.Data.List.Forall2
import Linewise.Proofs.SplitOutcome

/-!
# The segments that a visitor is told of

A caller of a split may keep one place for each segment in a table, and look it up by the
index that its visitor is told.  So it matters that the indices begin at zero, leave none
out, and stay below the number of threads.  They do, because a worker with a piece to scan
makes a call before anything can end it, and because a plan has no empty segments.

Nothing is assumed of the visitor here.  In a `FreeStep` a worker is told whatever comes to
the visitor's mind, be it for what other workers have found or for no reason at all.

* `Worker.Reads`, `Crew.Reads` — what holds after any such steps: the lines handed over are
  the first of the piece, and a worker that has ended has not been idle;
* `pieces_nonempty`, `length_pieces_le` — the pieces of a split;
* `split_calls_a_dense_range` — **the indices are those below some number of pieces.**
-/

namespace Linewise

variable {ε π : Type}

/-- One step of a split with a visitor whose replies may depend on anything. -/
def FreeStep (c d : Crew ε π) : Prop := ∃ rule : SegmentRule ε π, Step rule c d

/-! ## What a worker has handed over -/

namespace Worker

/-- A worker on its way through a piece. -/
structure Reads (piece : Bytes) (w : Worker ε π) : Prop where
  lines_eq : w.log.seen ++ lines w.scanner.remaining = lines piece
  busy : w.ended.isSome → lines piece ≠ [] → w.log.seen ≠ []

namespace Reads

variable {piece : Bytes} {w : Worker ε π}

/-- Before the first turn all lines of the piece are to come. -/
theorem start (piece : Bytes) : Reads piece (start piece : Worker ε π) where
  lines_eq := by simp [Worker.start]
  busy := fun hended => absurd hended (by simp [Worker.start])

/-- **A turn** takes a line over from what remains, or finds that none does. -/
theorem turn (h : Reads piece w) (reply : Nat → Bytes → Reply ε π) :
    Reads piece (w.turn reply) := by
  have hlines := h.lines_eq
  cases hline : w.scanner.getline with
  | mk line t =>
      cases line with
      | none =>
          have hturn : w.turn reply = ⟨t, w.log, some (.done w.log.calls)⟩ := by
            simp [Worker.turn, hline]
          rw [Scanner.remaining_of_getline_none hline, lines_nil, List.append_nil] at hlines
          rw [hturn, Scanner.retired_of_getline_none hline]
          exact ⟨by simpa [Scanner.remaining] using hlines, fun _ hne => hlines ▸ hne⟩
      | some line =>
          have hturn : (w.turn reply).scanner = t ∧ (w.turn reply).log = w.log.add line := by
            cases hreply : reply w.log.calls line <;> simp [Worker.turn, hline, hreply]
          rw [Scanner.lines_remaining_of_getline hline] at hlines
          refine ⟨?_, fun _ _ => ?_⟩
          · rw [hturn.1, hturn.2, Log.seen_add]
            simpa using hlines
          · rw [hturn.2, Log.seen_add]
            simp

end Reads

end Worker

namespace Crew

/-- Each worker is on its way through its piece. -/
def Reads (pieces : List Bytes) (c : Crew ε π) : Prop :=
  List.Forall₂ Worker.Reads pieces c.workers

namespace Reads

variable {pieces : List Bytes} {c d : Crew ε π}

theorem start (pieces : List Bytes) : Reads pieces (start pieces : Crew ε π) := by
  rw [Reads, Crew.start, List.forall₂_map_right_iff, List.forall₂_same]
  exact fun piece _ => Worker.Reads.start piece

/-- **One step**, whatever the visitor replies. -/
theorem step (h : Reads pieces c) (hstep : FreeStep c d) : Reads pieces d := by
  obtain ⟨rule, hstep⟩ := hstep
  cases hstep with
  | @turn before w after joined tally going =>
      have hfront := List.forall₂_take_append pieces before (w :: after) h
      have hback := List.forall₂_drop_append pieces before (w :: after) h
      rw [Reads, ← List.take_append_drop before.length pieces]
      cases hrest : pieces.drop before.length with
      | nil =>
          rw [hrest] at hback
          cases hback
      | cons piece rest =>
          rw [hrest] at hback
          obtain ⟨hw, hafter⟩ := List.forall₂_cons.mp hback
          exact List.rel_append hfront (List.Forall₂.cons (hw.turn _) hafter)
  | join next ended => exact h

/-- **Any steps.** -/
theorem reach (h : Relation.ReflTransGen FreeStep (Crew.start pieces : Crew ε π) c) :
    Reads pieces c := by
  induction h with
  | refl => exact start pieces
  | tail _ hstep ih => exact ih.step hstep

end Reads

/-- The visitor has been told of the segment with the index `i`. -/
def Called (c : Crew ε π) (i : Nat) : Prop := ∃ ls, c.heard[i]? = some ls ∧ ls ≠ []

namespace Reads

variable {pieces : List Bytes} {c : Crew ε π} {i : Nat}

/-- The visitor is told only of segments with something in them. -/
theorem exists_piece_of_called (h : Reads pieces c) (hcalled : c.Called i) :
    ∃ piece, pieces[i]? = some piece ∧ piece ≠ [] := by
  obtain ⟨ls, hheard, hne⟩ := hcalled
  rw [heard, List.getElem?_map, Option.map_eq_some_iff] at hheard
  obtain ⟨w, hw, rfl⟩ := hheard
  obtain ⟨hlength, hreads⟩ := List.forall₂_iff_get.mp h
  obtain ⟨hi, rfl⟩ := List.getElem?_eq_some_iff.mp hw
  have hpiece : i < pieces.length := hlength ▸ hi
  have hlines := (hreads i hpiece hi).lines_eq
  refine ⟨pieces[i], List.getElem?_eq_getElem hpiece, ?_⟩
  intro hnil
  simp only [List.get_eq_getElem, hnil, lines_nil, List.append_eq_nil_iff] at hlines
  exact hne hlines.1

/-- Of each of these it has been told when its worker has ended. -/
theorem called_of_ended (h : Reads pieces c)
    (hended : ∀ w ∈ c.workers, ∃ outcome, w.ended = some outcome) {piece : Bytes}
    (hpiece : pieces[i]? = some piece) (hne : piece ≠ []) : c.Called i := by
  obtain ⟨hlength, hreads⟩ := List.forall₂_iff_get.mp h
  obtain ⟨hi, rfl⟩ := List.getElem?_eq_some_iff.mp hpiece
  have hworker : i < c.workers.length := hlength ▸ hi
  obtain ⟨outcome, houtcome⟩ := hended c.workers[i] (List.getElem_mem hworker)
  have hbusy := (hreads i hi hworker).busy (by simp [houtcome]) (lines_ne_nil hne)
  exact ⟨c.workers[i].log.seen, by simp [heard, hworker], hbusy⟩

end Reads

end Crew

/-- A visit hands out a line as soon as there is one. -/
theorem Visited.lines_eq_nil_iff {reply : Nat → Bytes → Reply ε π} {ls : List Bytes}
    {d : Delivery ε π} (h : Visited reply ls d) : d.lines = [] ↔ ls = [] := by
  cases h with
  | through all => exact Iff.rfl
  | failed split earlier last => simp [split]
  | aborted split earlier last => simp [split]

/-- A worker hands out a line exactly if its piece has a byte. -/
theorem exists_deliveries_iff (data : Bytes) (opts : Options) (rule : SegmentRule ε π) (i : Nat) :
    (∃ d, (deliveries data opts rule)[i]? = some d ∧ d.lines ≠ []) ↔
      ∃ piece, (pieces data opts)[i]? = some piece ∧ piece ≠ [] := by
  have hlines : ∀ piece, (deliver (rule i) piece).lines ≠ [] ↔ piece ≠ [] := by
    intro piece
    rw [ne_eq, (deliver_visited (rule i) piece).lines_eq_nil_iff]
    constructor
    · rintro hne rfl
      exact hne lines_nil
    · exact lines_ne_nil
  simp only [getElem?_deliveries, Option.map_eq_some_iff]
  constructor
  · rintro ⟨d, ⟨piece, hpiece, rfl⟩, hne⟩
    exact ⟨piece, hpiece, (hlines piece).mp hne⟩
  · rintro ⟨piece, hpiece, hne⟩
    exact ⟨_, ⟨piece, hpiece, rfl⟩, (hlines piece).mpr hne⟩

/-! ## The pieces of a split -/

/-- There are no more pieces than threads. -/
theorem length_pieces_le (data : Bytes) (opts : Options) :
    (pieces data opts).length ≤ opts.threads := by
  have htwo := opts.two_le_threads
  by_cases h : opts.minSize ≤ data.length
  · have hplan := length_plan_le data opts.threads
    rw [pieces_of_minSize_le h, List.length_map]
    omega
  · rw [pieces_of_length_lt (Nat.lt_of_not_le h), List.length_singleton]
    omega

/-- **No piece is empty**, unless there is nothing to split. -/
theorem pieces_nonempty {data : Bytes} (hdata : data ≠ []) (opts : Options) :
    ∀ piece ∈ pieces data opts, piece ≠ [] := by
  intro piece hpiece
  by_cases h : opts.minSize ≤ data.length
  · rw [pieces_of_minSize_le h] at hpiece
    obtain ⟨s, hs, rfl⟩ := List.mem_map.mp hpiece
    obtain ⟨-, hlt, hstop⟩ := (plan_tiles data opts.threads).bounds hs
    have hlength := Segment.length_slice (s := s) ⟨Nat.le_of_lt hlt, hstop⟩
    refine List.ne_nil_of_length_pos ?_
    rw [hlength, Segment.length]
    omega
  · rw [pieces_of_length_lt (Nat.lt_of_not_le h), List.mem_singleton] at hpiece
    rwa [hpiece]

/-- The empty data have no piece with a byte in it. -/
theorem eq_nil_of_mem_pieces_nil {opts : Options} {piece : Bytes}
    (h : piece ∈ pieces [] opts) : piece = [] := by
  by_cases hsize : opts.minSize ≤ ([] : Bytes).length
  · rw [pieces_of_minSize_le hsize, (plan_eq_nil_iff [] opts.threads).mpr rfl] at h
    cases h
  · rw [pieces_of_length_lt (Nat.lt_of_not_le hsize)] at h
    exact List.mem_singleton.mp h

theorem pieces_ne_nil {data : Bytes} (hdata : data ≠ []) (opts : Options) :
    pieces data opts ≠ [] := by
  intro hnil
  have hlines := lines_pieces data opts
  rw [hnil] at hlines
  exact lines_ne_nil hdata hlines.symm

/-- The pieces with a byte in them are the first so many, and there are at most as many of
them as threads. -/
theorem exists_number_of_pieces (data : Bytes) (opts : Options) :
    ∃ m ≤ opts.threads, (m = 0 ↔ data = []) ∧ (data.length < opts.minSize → m ≤ 1) ∧
      ∀ i, (∃ piece, (pieces data opts)[i]? = some piece ∧ piece ≠ []) ↔ i < m := by
  -- The empty data may have one piece, but that has no line.
  by_cases hdata : data = []
  · subst hdata
    refine ⟨0, Nat.zero_le _, by simp, fun _ => Nat.zero_le 1, ?_⟩
    intro i
    constructor
    · rintro ⟨piece, hpiece, hne⟩
      exact absurd (eq_nil_of_mem_pieces_nil (List.mem_of_getElem? hpiece)) hne
    · intro hi
      exact absurd hi (Nat.not_lt_zero i)
  · refine ⟨(pieces data opts).length, length_pieces_le data opts, ?_, ?_, ?_⟩
    · rw [List.length_eq_zero_iff]
      exact iff_of_false (pieces_ne_nil hdata opts) hdata
    · intro hsmall
      rw [pieces_of_length_lt hsmall, List.length_singleton]
    · intro i
      constructor
      · rintro ⟨piece, hpiece, -⟩
        exact (List.getElem?_eq_some_iff.mp hpiece).1
      · intro hi
        exact ⟨(pieces data opts)[i], List.getElem?_eq_getElem hi,
          pieces_nonempty hdata opts _ (List.getElem_mem hi)⟩

/-- No split goes on forever, whatever its visitor replies. -/
theorem freeStep_wellFounded : WellFounded fun d c : Crew ε π => FreeStep c d :=
  Subrelation.wf (fun ⟨_, hstep⟩ => hstep.stepsLeft_lt) (measure Crew.stepsLeft).wf

/-- **A visitor is told the indices of a dense range.**  Let options be asked for in any way,
where a request that is refused changes nothing.  Then there is a number of segments, not
above that of the threads, such that a visitor is told of exactly the segments below it: a
visitor that follows a rule, and one whose replies may depend on anything.  No step tells it
of another segment, no order of steps goes on forever, and wherever one stops it has been
told of all of them.  The number is zero exactly if there are no bytes, and at most one below
the size from which the work is shared. -/
theorem split_calls_a_dense_range (requests : List OptionRequest) (data : Bytes) :
    let opts := Options.default.after requests
    opts.threads ≤ Options.maxThreads ∧
      ∃ m ≤ opts.threads, (m = 0 ↔ data = []) ∧ (data.length < opts.minSize → m ≤ 1) ∧
        (∀ (rule : SegmentRule ε π) (i : Nat),
          (∃ d, (deliveries data opts rule)[i]? = some d ∧ d.lines ≠ []) ↔ i < m) ∧
        (∀ c : Crew ε π, Relation.ReflTransGen FreeStep (Crew.start (pieces data opts)) c →
          (∀ i, c.Called i → i < m) ∧
            ((∀ d, ¬ FreeStep c d) → ∀ i, c.Called i ↔ i < m)) ∧
        WellFounded fun d c : Crew ε π => FreeStep c d := by
  intro opts
  obtain ⟨m, hthreads, hzero, hsmall, hpieces⟩ := exists_number_of_pieces data opts
  refine ⟨opts.threads_le_eight, m, hthreads, hzero, hsmall, ?_, ?_, freeStep_wellFounded⟩
  · intro rule i
    rw [exists_deliveries_iff, hpieces]
  · intro c hreach
    have hreads : c.Reads (pieces data opts) := Crew.Reads.reach hreach
    have hbelow : ∀ i, c.Called i → i < m := fun i hcalled =>
      (hpieces i).mp (hreads.exists_piece_of_called hcalled)
    refine ⟨hbelow, fun hstuck i => ⟨hbelow i, fun hi => ?_⟩⟩
    obtain ⟨piece, hpiece, hne⟩ := (hpieces i).mpr hi
    have hended := Crew.ended_of_stuck fun d hstep =>
      hstuck d ⟨fun _ _ _ => .accept, hstep⟩
    exact hreads.called_of_ended hended hpiece hne

end Linewise
