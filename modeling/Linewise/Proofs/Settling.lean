import Mathlib.Algebra.GroupWithZero.Nat
import Linewise.Split.Interleaving

/-!
# A split settles

Nothing a worker does depends on another worker or on the caller, and the caller only
waits.  So the order of steps is free but without effect: every step brings the split
nearer to its end, it can always go on until all workers have ended and are joined,
and then it has come to what `deliveries` and `join` say.

* `Step.stepsLeft_lt` — no split goes on forever;
* `Crew.Sound` — what holds of a split after any steps; `Crew.Sound.step` — one more
  step keeps it;
* `Crew.Sound.stopped` — where no step is left, everything is done;
* `settles_start` — **every order of steps ends in the same way.**
-/

namespace Linewise

variable {ε π : Type}

/-- The turns that a worker has left at most: one for each line to come, and one to find
the end. -/
def Worker.turnsLeft (w : Worker ε π) : Nat :=
  match w.ended with
  | some _ => 0
  | none => w.scanner.remaining.length + 1

/-- A turn ends the worker, or it takes a line and leaves fewer bytes. -/
theorem Worker.turnsLeft_turn_lt (reply : Nat → Bytes → Reply ε π) {w : Worker ε π}
    (h : w.ended = none) : (w.turn reply).turnsLeft < w.turnsLeft := by
  obtain ⟨scanner, log, ended⟩ := w
  subst h
  cases hline : scanner.getline with
  | mk line t =>
      cases line with
      | none => simp [turnsLeft, turn, hline]
      | some line =>
          have hlt := Scanner.length_remaining_lt hline
          cases hreply : reply log.calls line with
          | accept => simpa [turnsLeft, turn, hline, hreply] using hlt
          | fail error => simp [turnsLeft, turn, hline, hreply]
          | abort payload => simp [turnsLeft, turn, hline, hreply]

/-- The steps that a split has left at most: the turns of its workers, and the joins. -/
def Crew.stepsLeft (c : Crew ε π) : Nat :=
  (c.workers.map Worker.turnsLeft).sum + (c.workers.length - c.joined)

/-- **Every step brings a split nearer to its end.** -/
theorem Step.stepsLeft_lt {rule : SegmentRule ε π} {c d : Crew ε π} (h : Step rule c d) :
    d.stepsLeft < c.stepsLeft := by
  cases h with
  | @turn before w after joined tally going =>
      have hlt := Worker.turnsLeft_turn_lt (rule before.length) going
      simp only [Crew.stepsLeft, List.map_append, List.map_cons, List.sum_append,
        List.sum_cons, List.length_append, List.length_cons]
      omega
  | join next ended =>
      have hlt := (List.getElem?_eq_some_iff.mp next).1
      simp only [Crew.stepsLeft]
      omega

/-- What settles on a goal settles on everything that follows from it. -/
theorem Settles.mono {rule : SegmentRule ε π} {goal weaker : Crew ε π → Prop}
    (hweaker : ∀ c, goal c → weaker c) {c : Crew ε π} (h : Settles rule goal c) :
    Settles rule weaker c := by
  induction h with
  | stopped stuck reached => exact Settles.stopped stuck (hweaker _ reached)
  | going step next ih => exact Settles.going step ih

namespace Crew

/-- Where no step is left, no worker can take a turn. -/
theorem ended_of_stuck {rule : SegmentRule ε π} {c : Crew ε π} (stuck : ∀ d, ¬ Step rule c d) :
    ∀ w ∈ c.workers, ∃ outcome, w.ended = some outcome := by
  intro w hw
  obtain ⟨workers, joined, tally⟩ := c
  cases hend : w.ended with
  | some outcome => exact ⟨outcome, rfl⟩
  | none =>
      obtain ⟨before, after, rfl⟩ := List.append_of_mem hw
      exact absurd (Step.turn hend) (stuck _)

/-- What holds of a split after any steps: the workers are on their way to the
deliveries `ds`, and the caller has collected the first of these. -/
structure Sound (rule : SegmentRule ε π) (ds : List (Delivery ε π)) (c : Crew ε π) :
    Prop where
  prospects_eq : prospects rule c.workers = ds
  joined_le : c.joined ≤ c.workers.length
  tally_eq : c.tally = ((ds.take c.joined).map Delivery.outcome).foldl Tally.add Tally.empty

namespace Sound

variable {rule : SegmentRule ε π} {ds : List (Delivery ε π)} {c d : Crew ε π}

/-- Before the first step the workers are to deliver what the split does. -/
theorem start (rule : SegmentRule ε π) (data : Bytes) (opts : Options) :
    Sound rule (deliveries data opts rule) (start (pieces data opts)) where
  prospects_eq := prospects_start rule data opts
  joined_le := Nat.zero_le _
  tally_eq := rfl

/-- **One more step.**  A turn keeps all prospects, and a join collects the prospect of
a worker that has ended, which is what it has delivered. -/
theorem step (h : Sound rule ds c) (hstep : Step rule c d) : Sound rule ds d := by
  have hprospects : prospects rule d.workers = ds := hstep.prospects_eq.trans h.prospects_eq
  cases hstep with
  | turn going => exact ⟨hprospects, by simpa using h.joined_le, h.tally_eq⟩
  | @join workers joined tally w outcome next ended =>
      have hat : ds[joined]? = some ⟨w.log.seen, outcome⟩ := by
        rw [← hprospects, prospects, List.getElem?_mapIdx, next, Option.map_some,
          Worker.prospect_of_ended _ ended]
      refine ⟨hprospects, (List.getElem?_eq_some_iff.mp next).1, ?_⟩
      have htally := h.tally_eq
      simp only at htally ⊢
      rw [List.take_add_one, hat, List.map_append, List.foldl_append, ← htally]
      rfl

/-- Where no step is left, all workers have ended and are joined. -/
theorem stopped (h : Sound rule ds c) (stuck : ∀ d, ¬ Step rule c d) :
    (∀ w ∈ c.workers, ∃ outcome, w.ended = some outcome) ∧ c.joined = c.workers.length := by
  have hended := ended_of_stuck stuck
  obtain ⟨workers, joined, tally⟩ := c
  refine ⟨hended, Nat.le_antisymm h.joined_le (Nat.le_of_not_lt fun hlt => ?_)⟩
  obtain ⟨outcome, houtcome⟩ := hended workers[joined] (List.getElem_mem hlt)
  exact stuck _ (Step.join (List.getElem?_eq_getElem hlt) houtcome)

/-- Once all workers have ended, the lines they handed out are those of the deliveries. -/
theorem heard_eq (h : Sound rule ds c)
    (hended : ∀ w ∈ c.workers, ∃ outcome, w.ended = some outcome) :
    c.heard = ds.map Delivery.lines := by
  rw [← h.prospects_eq, heard, prospects]
  apply List.ext_getElem
  · simp
  · intro i hi hd
    rw [List.length_map] at hi
    obtain ⟨outcome, houtcome⟩ := hended c.workers[i] (List.getElem_mem hi)
    simp [Worker.prospect_of_ended _ houtcome]

/-- Once all workers are joined, the caller has the outcome of the deliveries. -/
theorem outcome?_eq (h : Sound rule ds c) (hjoined : c.joined = c.workers.length) :
    c.outcome? = some (join (ds.map Delivery.outcome)) := by
  have hlen : ds.length = c.workers.length := by
    rw [← h.prospects_eq, prospects, List.length_mapIdx]
  rw [outcome?, if_pos hjoined, h.tally_eq, hjoined, ← hlen, List.take_length, join]

/-- From a sound split every order of steps leads to the deliveries.  The induction is
on the bound for the steps that are left. -/
theorem settles (h : Sound rule ds c) :
    Settles rule (fun e => e.heard = ds.map Delivery.lines ∧
      e.outcome? = some (join (ds.map Delivery.outcome))) c := by
  induction hn : c.stepsLeft using Nat.strongRecOn generalizing c with
  | ind n ih =>
      by_cases hstep : ∃ d, Step rule c d
      · -- Any step will do to go on, but all of them have to lead to the goal.
        obtain ⟨d, hd⟩ := hstep
        refine Settles.going hd ?_
        intro e he
        exact ih e.stepsLeft (hn ▸ he.stepsLeft_lt) (h.step he) rfl
      · have stuck : ∀ d, ¬ Step rule c d := fun d hd => hstep ⟨d, hd⟩
        obtain ⟨hended, hjoined⟩ := h.stopped stuck
        exact Settles.stopped stuck ⟨h.heard_eq hended, h.outcome?_eq hjoined⟩

end Sound

end Crew

/-- **Every order of steps ends in the same way**: the workers have handed over the lines
that `deliveries` says, and the caller has the outcome that `splitIndexed` says. -/
theorem settles_start (data : Bytes) (opts : Options) (rule : SegmentRule ε π) :
    Settles rule (fun c => c.heard = (deliveries data opts rule).map Delivery.lines ∧
      c.outcome? = some (splitIndexed data opts rule)) (Crew.start (pieces data opts)) :=
  (Crew.Sound.start rule data opts).settles

end Linewise
