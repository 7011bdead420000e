import Linewise.Proofs.VisitCourse
import Linewise.Reader.Calls

/-!
# Where a visit stops

Whether a visitor accepts a line may depend on what it has seen before.  So the line that
stops a visit is found by following the visitor's state: it accepts the lines before that
line one after the other, and in the state to which they bring it, it does not accept this
one.

* `Visitor.Accepts` — a visitor accepts some lines one after the other;
  `Visitor.accepts_or_stops` says that it accepts all of them or has a first that it does
  not accept;
* `Scanner.Course.of_accepts` — a visit goes through accepted lines to the next;
* `Scanner.forEach_of_accepts`, `Scanner.forEach_of_stops` — **how a visit ends**, and where
  it leaves the scanner;
* `Scanner.heard_of_accepts`, `Scanner.heard_of_stops` — which lines the visitor was given.
-/

namespace Linewise

variable {σ ε π : Type}

namespace Visitor

/-- The visitor accepts the lines one after the other, and they take it from one state to
another. -/
inductive Accepts (visit : Visitor σ ε π) : σ → List Bytes → σ → Prop
  | nil (state : σ) : Accepts visit state [] state
  | cons {state next last : σ} {line : Bytes} {later : List Bytes}
      (reply : visit state line = (.accept, next)) (rest : Accepts visit next later last) :
      Accepts visit state (line :: later) last

/-- **All lines or a first that is not accepted**: there is nothing else. -/
theorem accepts_or_stops (visit : Visitor σ ε π) (state : σ) (ls : List Bytes) :
    (∃ last, visit.Accepts state ls last) ∨
      ∃ before line after mid, ls = before ++ line :: after ∧
        visit.Accepts state before mid ∧ (visit mid line).1 ≠ .accept := by
  induction ls generalizing state with
  | nil => exact Or.inl ⟨state, Accepts.nil state⟩
  | cons line ls ih =>
      by_cases haccept : (visit state line).1 = .accept
      · have hreply : visit state line = (.accept, (visit state line).2) :=
          Prod.ext haccept rfl
        rcases ih (visit state line).2 with ⟨last, hall⟩ | ⟨before, stop, after, mid, rfl, h, hne⟩
        · exact Or.inl ⟨last, Accepts.cons hreply hall⟩
        · exact Or.inr ⟨line :: before, stop, after, mid, rfl, Accepts.cons hreply h, hne⟩
      · exact Or.inr ⟨[], line, ls, state, rfl, Accepts.nil state, haccept⟩

/-- A visitor with a log accepts the same lines, and has them in its log afterwards. -/
theorem Accepts.recording {visit : Visitor σ ε π} {state last : σ} {ls : List Bytes}
    (h : visit.Accepts state ls last) (log : Log) :
    ∃ full : Log, Accepts (recording visit) (state, log) ls (last, full) ∧
      full.seen = log.seen ++ ls := by
  induction h generalizing log with
  | nil state => exact ⟨log, Accepts.nil _, (List.append_nil _).symm⟩
  | @cons state next last line later reply rest ih =>
      obtain ⟨full, haccepts, hseen⟩ := ih (log.add line)
      refine ⟨full, Accepts.cons ?_ haccepts, ?_⟩
      · simp [Linewise.recording, reply]
      · rw [hseen, Log.seen_add, List.append_assoc]
        rfl

end Visitor

/-- The replies that stop a visit, each with the outcome that it gives to the visit. -/
inductive Reply.Stops : Reply ε π → Outcome ε π → Prop
  | failed (error : ε) : Stops (.fail error) (.failed error)
  | aborted (payload : π) : Stops (.abort payload) (.aborted payload)

namespace Scanner

variable {visit : Visitor σ ε π} {state mid last : σ} {before after : List Bytes}
  {line : Bytes} {reply : Reply ε π} {outcome : Outcome ε π} {s t : Scanner}

/-- As long as a line remains, a request takes it. -/
theorem getline_of_lines_eq_cons {later : List Bytes} (h : lines s.remaining = line :: later) :
    ∃ t, s.getline = (some line, t) ∧ lines t.remaining = later := by
  cases hget : s.getline with
  | mk answer t =>
      cases answer with
      | none =>
          rw [remaining_of_getline_none hget] at h
          cases h
      | some taken =>
          rw [lines_remaining_of_getline hget] at h
          cases h
          exact ⟨t, rfl, rfl⟩

/-- When no line remains, a request retires the scanner. -/
theorem getline_of_lines_eq_nil (h : lines s.remaining = []) : s.getline = (none, retired) := by
  cases hget : s.getline with
  | mk answer t =>
      cases answer with
      | none => rw [retired_of_getline_none hget]
      | some taken =>
          rw [lines_remaining_of_getline hget] at h
          cases h

/-- A reply that stops a visit at its first line ends its course. -/
theorem Course.stopped {count : Nat} (taken : s.getline = (some line, t))
    (hreply : visit state line = (reply, last)) (hstop : reply.Stops outcome) :
    Course visit count state s (outcome, last, t) := by
  cases hstop with
  | failed error => exact Course.failed taken hreply
  | aborted payload => exact Course.aborted taken hreply

/-- **A visit goes through accepted lines**, and on from the scanner behind them. -/
theorem Course.of_accepts (h : visit.Accepts state before mid)
    (hlines : lines s.remaining = before ++ after) (count : Nat) :
    ∃ t, lines t.remaining = after ∧ ∀ result,
      Course visit (count + before.length) mid t result → Course visit count state s result := by
  induction h generalizing s count with
  | nil state => exact ⟨s, hlines, fun result hresult => hresult⟩
  | @cons state next last line later hreply rest ih =>
      obtain ⟨t, htaken, hleft⟩ := getline_of_lines_eq_cons hlines
      obtain ⟨u, hafter, hgoes⟩ := ih hleft (count + 1)
      refine ⟨u, hafter, fun result hresult => Course.accepted htaken hreply (hgoes result ?_)⟩
      rwa [Nat.add_assoc, Nat.add_comm 1]

/-- **A visit whose lines are all accepted** counts them and retires the scanner. -/
theorem forEach_of_accepts (h : visit.Accepts state (lines s.remaining) last) :
    s.forEach visit state = (.done (lines s.remaining).length, last, retired) := by
  obtain ⟨t, hleft, hgoes⟩ := Course.of_accepts h (List.append_nil _).symm 0
  have hend := hgoes _ (Course.done (getline_of_lines_eq_nil hleft))
  rw [Nat.zero_add] at hend
  exact hend.eq_loop

/-- **A visit that a reply stops** leaves the scanner behind the line that got this reply,
and does not retire it, even if no line remains. -/
theorem forEach_of_stops (hlines : lines s.remaining = before ++ line :: after)
    (haccepts : visit.Accepts state before mid) (hreply : visit mid line = (reply, last))
    (hstop : reply.Stops outcome) :
    ∃ t offset, s.forEach visit state = (outcome, last, t) ∧ t.position = some offset ∧
      lines t.remaining = after := by
  obtain ⟨t, hleft, hgoes⟩ := Course.of_accepts haccepts hlines 0
  obtain ⟨u, htaken, hafter⟩ := getline_of_lines_eq_cons hleft
  obtain ⟨offset, hposition⟩ := position_of_getline htaken
  have hend := hgoes _ (Course.stopped htaken hreply hstop)
  exact ⟨u, offset, hend.eq_loop, hposition, hafter⟩

/-- A visitor that accepts all lines to come hears them all. -/
theorem heard_of_accepts (h : visit.Accepts state (lines s.remaining) last) :
    s.heard visit state = lines s.remaining := by
  obtain ⟨full, hfull, hseen⟩ := h.recording Log.empty
  rw [heard, forEach_of_accepts hfull, hseen]
  rfl

/-- A visitor that stops hears the lines up to the one at which it stops. -/
theorem heard_of_stops (hlines : lines s.remaining = before ++ line :: after)
    (haccepts : visit.Accepts state before mid) (hreply : visit mid line = (reply, last))
    (hstop : reply.Stops outcome) : s.heard visit state = before ++ [line] := by
  obtain ⟨full, hfull, hseen⟩ := haccepts.recording Log.empty
  have hnoted : recording visit (mid, full) line = (reply, last, full.add line) := by
    simp [recording, hreply]
  obtain ⟨t, offset, hvisit, -⟩ := forEach_of_stops hlines hfull hnoted hstop
  rw [heard, hvisit, Log.seen_add, hseen]
  rfl

end Scanner

end Linewise
