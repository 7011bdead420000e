import Linewise.Split

/-!
# Interleavings of the workers

`deliveries` lets each worker scan its piece in one go.  Workers on threads take
turns instead: at any moment one of them asks for its next line, hands it over
and notes the reply.  Which one is not settled, and neither is when the caller
gets to join a worker that has ended.

A `Worker` is the state between two such turns, a `Crew` is the state of the whole
split, and `Step` is one step of it: a turn of any worker that has not ended, or
the caller's join of the lowest worker that is not joined yet.  A worker that is
not started yet is one that has taken no turn.  What a worker will have delivered
in the end, `Worker.prospect`, is settled by its own state and changed by no step,
be it its own or another's.

* `Worker.prospect_turn` — a worker's own turn keeps its prospect;
* `Step.prospects_eq` — a step keeps the prospects of all workers;
* `Settles` — what holds at the end of a split, **whatever the order of steps**:
  the split cannot go on forever, and wherever it stops the goal is reached.
-/

namespace Linewise

variable {ε π : Type}

/-- A worker between two turns. -/
structure Worker (ε π : Type) where
  scanner : Scanner
  log : Log
  /-- How its scan ended, if it has. -/
  ended : Option (Outcome ε π)

namespace Worker

/-- A worker that has taken no turn. -/
def start (piece : Bytes) : Worker ε π := ⟨Scanner.ofBytes piece, Log.empty, none⟩

/-- One turn: ask for a line, hand it over, note the reply.  As long as a worker
has not ended, all the lines it has handed over were accepted. -/
def turn (reply : Nat → Bytes → Reply ε π) (w : Worker ε π) : Worker ε π :=
  match w.scanner.getline with
  | (none, t) => ⟨t, w.log, some (.done w.log.calls)⟩
  | (some line, t) =>
      match reply w.log.calls line with
      | .accept => ⟨t, w.log.add line, none⟩
      | .fail error => ⟨t, w.log.add line, some (.failed error)⟩
      | .abort payload => ⟨t, w.log.add line, some (.aborted payload)⟩

/-- What the worker will have delivered in the end. -/
def prospect (reply : Nat → Bytes → Reply ε π) (w : Worker ε π) : Delivery ε π :=
  match w.ended with
  | some outcome => ⟨w.log.seen, outcome⟩
  | none =>
      let (outcome, log, _) :=
        Scanner.forEach.loop (logged reply) w.log.calls w.log w.scanner
      ⟨log.seen, outcome⟩

/-- Left alone, it delivers what a scan of its piece delivers. -/
theorem prospect_start (reply : Nat → Bytes → Reply ε π) (piece : Bytes) :
    (start piece : Worker ε π).prospect reply = deliver reply piece := rfl

theorem prospect_of_ended (reply : Nat → Bytes → Reply ε π) {w : Worker ε π}
    {outcome : Outcome ε π} (h : w.ended = some outcome) :
    w.prospect reply = ⟨w.log.seen, outcome⟩ := by
  rw [prospect, h]

/-- **A turn changes no prospect.**  It only does the first step of what is left
to do. -/
theorem prospect_turn (reply : Nat → Bytes → Reply ε π) {w : Worker ε π}
    (h : w.ended = none) : (w.turn reply).prospect reply = w.prospect reply := by
  obtain ⟨scanner, log, ended⟩ := w
  subst h
  cases hline : scanner.getline with
  | mk line t =>
      cases line with
      | none =>
          simp [prospect, turn, hline, Scanner.forEach_loop_of_none _ hline]
      | some line =>
          cases hreply : reply log.calls line <;>
            simp [prospect, turn, hline, hreply, logged, Log.add,
              Scanner.forEach_loop_of_some _ hline]

end Worker

/-- A split in progress: its workers, from the lowest segment to the highest, and
what the caller knows of them. -/
structure Crew (ε π : Type) where
  workers : List (Worker ε π)
  /-- How many workers, from the lowest on, the caller has joined. -/
  joined : Nat
  /-- What the caller has collected from them. -/
  tally : Tally ε π

namespace Crew

def start (pieces : List Bytes) : Crew ε π := ⟨pieces.map Worker.start, 0, Tally.empty⟩

/-- The lines that each worker has handed out so far. -/
def heard (c : Crew ε π) : List (List Bytes) := c.workers.map fun w => w.log.seen

/-- The outcome of the split, once all workers are joined. -/
def outcome? (c : Crew ε π) : Option (Outcome ε π) :=
  if c.joined = c.workers.length then some c.tally.close else none

end Crew

/-- One step of a split. -/
inductive Step (rule : SegmentRule ε π) : Crew ε π → Crew ε π → Prop where
  /-- Any worker that has not ended takes a turn. -/
  | turn {before : List (Worker ε π)} {w : Worker ε π} {after : List (Worker ε π)}
      {joined : Nat} {tally : Tally ε π} (going : w.ended = none) :
      Step rule ⟨before ++ w :: after, joined, tally⟩
        ⟨before ++ w.turn (rule before.length) :: after, joined, tally⟩
  /-- The caller joins the next worker, which has ended. -/
  | join {workers : List (Worker ε π)} {joined : Nat} {tally : Tally ε π}
      {w : Worker ε π} {outcome : Outcome ε π} (next : workers[joined]? = some w)
      (ended : w.ended = some outcome) :
      Step rule ⟨workers, joined, tally⟩ ⟨workers, joined + 1, tally.add outcome⟩

/-- Whatever steps are taken from here on, the split comes to a stop, and `goal`
holds of it there. -/
inductive Settles (rule : SegmentRule ε π) (goal : Crew ε π → Prop) : Crew ε π → Prop where
  /-- No step is left to take. -/
  | stopped {c : Crew ε π} (stuck : ∀ d, ¬ Step rule c d) (reached : goal c) :
      Settles rule goal c
  /-- Some step can be taken, and each of them leads on to the goal. -/
  | going {c d : Crew ε π} (step : Step rule c d)
      (next : ∀ e, Step rule c e → Settles rule goal e) : Settles rule goal c

/-- What all workers will have delivered in the end. -/
def prospects (rule : SegmentRule ε π) (ws : List (Worker ε π)) : List (Delivery ε π) :=
  ws.mapIdx fun index w => w.prospect (rule index)

/-- At the start these are the deliveries of the split. -/
theorem prospects_start (rule : SegmentRule ε π) (data : Bytes) (opts : Options) :
    prospects rule (Crew.start (pieces data opts)).workers = deliveries data opts rule := by
  apply List.ext_getElem
  · simp [prospects, deliveries, Crew.start]
  · intro i hi hd
    simp [prospects, deliveries, Crew.start, Worker.prospect_start]

/-- A step keeps the prospects of all workers. -/
theorem Step.prospects_eq {rule : SegmentRule ε π} {c d : Crew ε π} (h : Step rule c d) :
    prospects rule d.workers = prospects rule c.workers := by
  cases h with
  | turn going => simp [prospects, List.mapIdx_append, Worker.prospect_turn _ going]
  | join => rfl

end Linewise
