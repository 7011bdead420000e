import Linewise.Proofs.JoinOrder
import Linewise.Proofs.PlanTiling
import Linewise.Proofs.Settling

/-!
# What a split comes to

A plan cuts between lines, a worker visits the lines of its piece, the caller joins
the workers in order, and the order of steps has no effect.  Together these say what
a caller of a split may rely on, whatever the bytes, the options and the order in
which the workers get to run.

* `lines_pieces` — the lines of the pieces are the lines of the whole;
* `split_eq_verdict` — a rule that looks at the line alone and never aborts has the
  same verdict on the pieces as on the whole;
* `split_agrees_with_scan` — **such a split is a scan**;
* `split_hears_every_line` — no line is lost, repeated, cut or moved;
* `split_settles_by_segment` — what each worker hands out, and which of several errors
  and aborts the caller gets.
-/

namespace Linewise

variable {ε π : Type}

/-- Data that are large enough are cut into the segments of the plan. -/
theorem pieces_of_minSize_le {data : Bytes} {opts : Options}
    (h : opts.minSize ≤ data.length) :
    pieces data opts = (plan data opts.threads).map (·.slice data) := by
  have hlarge : opts.isSequential data.length = false := by
    simpa [Options.isSequential] using h
  rw [pieces, hlarge]
  rfl

theorem pieces_of_length_lt {data : Bytes} {opts : Options} (h : data.length < opts.minSize) :
    pieces data opts = [data] := by
  have hsmall : opts.isSequential data.length = true := by
    simpa [Options.isSequential] using h
  rw [pieces, hsmall]
  rfl

/-- **The lines of the pieces** are the lines of the whole. -/
theorem lines_pieces (data : Bytes) (opts : Options) :
    ((pieces data opts).map lines).flatten = lines data := by
  by_cases h : opts.minSize ≤ data.length
  · rw [pieces_of_minSize_le h, List.map_map]
    exact lines_plan data opts.threads
  · rw [pieces_of_length_lt (Nat.lt_of_not_le h)]
    simp

theorem getElem?_deliveries (data : Bytes) (opts : Options) (rule : SegmentRule ε π)
    (i : Nat) :
    (deliveries data opts rule)[i]? = (pieces data opts)[i]?.map (deliver (rule i)) := by
  rw [deliveries, List.getElem?_mapIdx]

/-- With one rule for all, the workers deliver what their pieces come to. -/
theorem deliveries_of_reply (data : Bytes) (opts : Options) (reply : Bytes → Reply ε π) :
    deliveries data opts (fun _ _ => reply) =
      (pieces data opts).map (deliver fun _ => reply) := by
  apply List.ext_getElem?
  intro i
  rw [getElem?_deliveries, List.getElem?_map]

/-- **The verdict of a split.**  A rule that looks at the line alone and never aborts
has the same verdict on the pieces as on the whole. -/
theorem split_eq_verdict (data : Bytes) (opts : Options) (answer : Bytes → Except ε Unit) :
    (split data opts fun line => Reply.ofResult (answer line) : Outcome ε π) =
      verdict answer (lines data) := by
  have hpieces : ∀ piece, (deliver (fun _ line => Reply.ofResult (answer line)) piece).outcome =
      (verdict answer (lines piece) : Outcome ε π) := fun piece =>
    (deliver_visited _ piece).outcome_eq_verdict
  rw [split, splitIndexed, deliveries_of_reply, List.map_map, ← lines_pieces data opts,
    ← join_verdicts, List.map_map]
  exact congrArg join (List.map_congr_left fun piece _ => hpieces piece)

/-- If every line is accepted, the workers hand out the lines of the data. -/
theorem lines_deliveries_accept (data : Bytes) (opts : Options) :
    ((deliveries data opts fun _ _ _ => (.accept : Reply ε π)).map Delivery.lines).flatten =
      lines data := by
  have hall : ∀ piece, (deliver (fun _ _ => (.accept : Reply ε π)) piece).lines =
      lines piece := by
    intro piece
    cases hvisit : deliver (fun _ _ => (.accept : Reply ε π)) piece with
    | mk heard outcome =>
        have hvisited := deliver_visited (fun _ _ => (.accept : Reply ε π)) piece
        rw [hvisit] at hvisited
        cases hvisited with
        | through => rfl
        | failed split earlier last => cases last
        | aborted split earlier last => cases last
  rw [deliveries_of_reply, List.map_map, ← lines_pieces data opts]
  exact congrArg List.flatten (List.map_congr_left fun piece _ => hall piece)

/-- **A split is a scan.**  Let the answer to a line depend on the line alone and be no
abort.  Then in every order of steps the split comes to the same outcome as a scan of
the whole: the number of lines if all are accepted, and otherwise the error of the
first line that has one.  The lines are those between the newlines of the data. -/
theorem split_agrees_with_scan (data : Bytes) (opts : Options)
    (answer : Bytes → Except ε Unit) :
    let reply : Bytes → Reply ε π := fun line => Reply.ofResult (answer line)
    (Scanner.ofBytes data).rest = lines data ∧
      split data opts reply = verdict answer (lines data) ∧
      split data opts reply =
        ((Scanner.ofBytes data).forEach (fun _ line => (reply line, ())) ()).1 ∧
      (∃ heard, Visited (fun _ => reply) (Scanner.ofBytes data).rest
        ⟨heard, split data opts reply⟩) ∧
      Settles (fun _ _ => reply) (fun c => c.outcome? = some (split data opts reply))
        (Crew.start (pieces data opts)) := by
  intro reply
  have hverdict : split data opts reply = verdict answer (lines data) :=
    split_eq_verdict data opts answer
  have hvisited := deliver_visited (fun _ => reply) data
  have hsplit : split data opts reply = (deliver (fun _ => reply) data).outcome := by
    rw [hvisited.outcome_eq_verdict]
    exact hverdict
  refine ⟨Scanner.rest_ofBytes data, hverdict, ?_,
    ⟨(deliver (fun _ => reply) data).lines, ?_⟩, ?_⟩
  · -- A visitor without a state fares like the one that logs its lines.
    rw [hsplit]
    exact (Scanner.forEach_map (fun _ : Log => ()) (fun _ _ => rfl) Log.empty _).symm
  · rw [hsplit, Scanner.rest_ofBytes]
    exact hvisited
  · refine (settles_start data opts fun _ _ => reply).mono ?_
    rintro c ⟨-, houtcome⟩
    exact houtcome

/-- **No line is lost, repeated, cut or moved.**  If every line is accepted, then in every
order of steps the lines of the workers, put together from the lowest segment to the
highest, are the lines that a single scanner hands out, and the outcome is their
number.  These are the lines between the newlines of the data. -/
theorem split_hears_every_line (data : Bytes) (opts : Options) :
    let rule : SegmentRule ε π := fun _ _ _ => .accept
    (Scanner.ofBytes data).rest = lines data ∧
      ((deliveries data opts rule).map Delivery.lines).flatten = (Scanner.ofBytes data).rest ∧
      splitIndexed data opts rule = .done (Scanner.ofBytes data).rest.length ∧
      Settles rule (fun c => c.heard.flatten = (Scanner.ofBytes data).rest ∧
        c.outcome? = some (.done (Scanner.ofBytes data).rest.length))
        (Crew.start (pieces data opts)) := by
  intro rule
  have hlines : ((deliveries data opts rule).map Delivery.lines).flatten =
      (Scanner.ofBytes data).rest := by
    rw [Scanner.rest_ofBytes]
    exact lines_deliveries_accept data opts
  have houtcome : splitIndexed data opts rule = .done (Scanner.ofBytes data).rest.length := by
    have hverdict := split_eq_verdict (π := π) data opts fun _ => (.ok () : Except ε Unit)
    have hnone : ((lines data).findSome? fun _ => errorOf (.ok () : Except ε Unit)) = none :=
      List.findSome?_eq_none_iff.mpr fun _ _ => rfl
    rw [verdict, hnone] at hverdict
    rw [Scanner.rest_ofBytes]
    exact hverdict
  refine ⟨Scanner.rest_ofBytes data, hlines, houtcome,
    (settles_start data opts rule).mono ?_⟩
  rintro c ⟨hheard, hjoined⟩
  exact ⟨by rw [hheard, hlines], by rw [hjoined, houtcome]⟩

/-- **What a split settles on, segment by segment.**  In every order of steps each worker
hands out the lines of its own segment up to the first one that is not accepted, and the
caller gets the abort of the lowest segment that has one, or else the error of the lowest
segment that has one, or else the number of all lines. -/
theorem split_settles_by_segment (data : Bytes) (opts : Options) (rule : SegmentRule ε π)
    (hsize : opts.minSize ≤ data.length) :
    (deliveries data opts rule).length = (plan data opts.threads).length ∧
      (∀ (i : Nat) (s : Segment) (d : Delivery ε π),
        (plan data opts.threads)[i]? = some s → (deliveries data opts rule)[i]? = some d →
          Visited (rule i) (Scanner.ofBytes (s.slice data)).rest d) ∧
      Joined ((deliveries data opts rule).map Delivery.outcome)
        (splitIndexed data opts rule) ∧
      Settles rule (fun c => c.heard = (deliveries data opts rule).map Delivery.lines ∧
        c.outcome? = some (splitIndexed data opts rule)) (Crew.start (pieces data opts)) := by
  have hpieces := pieces_of_minSize_le hsize
  refine ⟨?_, ?_, join_joined _, settles_start data opts rule⟩
  · rw [deliveries, hpieces, List.length_mapIdx, List.length_map]
  · intro i s d hs hd
    rw [getElem?_deliveries, hpieces, List.getElem?_map, hs] at hd
    cases hd
    rw [Scanner.rest_ofBytes]
    exact deliver_visited (rule i) (s.slice data)

/-- Of two workers with two lines each, the first fails at once and the second aborts on
its last line.  The caller gets the abort, and neither worker stops the other. -/
theorem split_settles_on_the_abort :
    let data : Bytes := [97, 10, 98, 10, 99, 10, 100, 10]
    let opts : Options := ⟨2, 0, by decide, by decide⟩
    let rule : SegmentRule Nat Nat := fun index call _ =>
      if index = 0 then .fail 7 else if call = 0 then .accept else .abort 9
    opts.minSize ≤ data.length ∧
      Settles rule (fun c => c.heard = [[[97]], [[99], [100]]] ∧
        c.outcome? = some (.aborted 9)) (Crew.start (pieces data opts)) := by
  intro data opts rule
  have hsize : opts.minSize ≤ data.length := by decide
  obtain ⟨-, -, -, hsettles⟩ := split_settles_by_segment data opts rule hsize
  have hlines : (deliveries data opts rule).map Delivery.lines = [[[97]], [[99], [100]]] := by
    decide +kernel
  have houtcome : splitIndexed data opts rule = .aborted 9 := by decide +kernel
  rw [hlines, houtcome] at hsettles
  exact ⟨hsize, hsettles⟩

end Linewise
