import Linewise.Split
import Linewise.Proofs.VisitCourse

/-!
# What a worker delivers

A worker hands out the lines of its piece in order, up to and including the first
one that is not accepted.  `Visited` says so of a list of lines, without a scanner
and without a log, and `deliver_visited` says that a worker does so.

A rule that looks at the line alone and never aborts has a `verdict` on a list of
lines: the error of the first line that has one, or their number.

* `Visited` — which lines a rule is given, and how the visit ends;
* `deliver_visited` — **a worker visits the lines of its piece**;
* `Visited.outcome_eq_verdict` — the verdict is the outcome of a visit.
-/

namespace Linewise

variable {ε π : Type}

/-- All of the lines are accepted, the calls being counted from zero. -/
def Accepts (reply : Nat → Bytes → Reply ε π) (ls : List Bytes) : Prop :=
  ∀ (i : Nat) (h : i < ls.length), reply i ls[i] = .accept

/-- How a visit of the lines `ls` by a rule goes.  Either every line is handed out and
accepted, or the lines are handed out up to the first that is not, and that one tells
how the visit ends. -/
inductive Visited (reply : Nat → Bytes → Reply ε π) (ls : List Bytes) :
    Delivery ε π → Prop
  | through (all : Accepts reply ls) : Visited reply ls ⟨ls, .done ls.length⟩
  | failed {before after : List Bytes} {line : Bytes} {error : ε}
      (split : ls = before ++ line :: after) (earlier : Accepts reply before)
      (last : reply before.length line = .fail error) :
      Visited reply ls ⟨before ++ [line], .failed error⟩
  | aborted {before after : List Bytes} {line : Bytes} {payload : π}
      (split : ls = before ++ line :: after) (earlier : Accepts reply before)
      (last : reply before.length line = .abort payload) :
      Visited reply ls ⟨before ++ [line], .aborted payload⟩

theorem Accepts.nil (reply : Nat → Bytes → Reply ε π) : Accepts reply [] :=
  fun _ h => absurd h (Nat.not_lt_zero _)

theorem Accepts.snoc {reply : Nat → Bytes → Reply ε π} {ls : List Bytes} {line : Bytes}
    (h : Accepts reply ls) (hline : reply ls.length line = .accept) :
    Accepts reply (ls ++ [line]) := by
  intro i hi
  by_cases hlt : i < ls.length
  · rw [List.getElem_append_left hlt]
    exact h i hlt
  · have heq : i = ls.length := by
      rw [List.length_append, List.length_singleton] at hi
      omega
    subst heq
    simpa using hline

/-- The log after these lines. -/
private def logOf (earlier : List Bytes) : Log := ⟨earlier.length, earlier.reverse⟩

private theorem logOf_seen (earlier : List Bytes) : (logOf earlier).seen = earlier := by
  simp [logOf, Log.seen]

private theorem logOf_add (earlier : List Bytes) (line : Bytes) :
    (logOf earlier).add line = logOf (earlier ++ [line]) := by
  simp [logOf, Log.add]

/-- A scan under way has handed out the lines in its log, and all were accepted.  The
induction is along the scan; each line accepted moves from what remains to the log,
so that the two together stay the same list. -/
private theorem forEach_loop_visited (reply : Nat → Bytes → Reply ε π) (s : Scanner)
    (earlier : List Bytes) (haccepts : Accepts reply earlier) :
    let visit := Scanner.forEach.loop (logged reply) earlier.length (logOf earlier) s
    Visited reply (earlier ++ lines s.remaining) ⟨visit.2.1.seen, visit.1⟩ := by
  induction s using Scanner.walk generalizing earlier with
  | none s t h =>
      simp only [Scanner.forEach_loop_of_none _ h, Scanner.remaining_of_getline_none h,
        logOf_seen, lines_nil, List.append_nil]
      exact Visited.through haccepts
  | some s line t h ih =>
      rw [Scanner.lines_remaining_of_getline h]
      have hcalls : (logOf earlier).calls = earlier.length := rfl
      cases hreply : reply earlier.length line with
      | accept =>
          have hnext := ih (earlier ++ [line]) (haccepts.snoc hreply)
          simp only [Scanner.forEach_loop_of_some _ h, logged, hcalls, hreply, logOf_add]
          simpa using hnext
      | fail error =>
          simp only [Scanner.forEach_loop_of_some _ h, logged, hcalls, hreply, logOf_add,
            logOf_seen]
          exact Visited.failed rfl haccepts hreply
      | abort payload =>
          simp only [Scanner.forEach_loop_of_some _ h, logged, hcalls, hreply, logOf_add,
            logOf_seen]
          exact Visited.aborted rfl haccepts hreply

/-- **A worker visits the lines of its piece.** -/
theorem deliver_visited (reply : Nat → Bytes → Reply ε π) (piece : Bytes) :
    Visited reply (lines piece) (deliver reply piece) := by
  have h := forEach_loop_visited reply (Scanner.ofBytes piece) [] (Accepts.nil reply)
  rw [Scanner.remaining_ofBytes, List.nil_append] at h
  exact h

/-- The error, if there is one. -/
def errorOf : Except ε Unit → Option ε
  | .ok _ => none
  | .error error => some error

/-- The error of the first line that has one, or the number of lines. -/
def verdict (answer : Bytes → Except ε Unit) (ls : List Bytes) : Outcome ε π :=
  match ls.findSome? fun line => errorOf (answer line) with
  | some error => .failed error
  | none => .done ls.length

theorem errorOf_eq_none_iff {result : Except ε Unit} :
    errorOf result = none ↔ (Reply.ofResult result : Reply ε π) = .accept := by
  cases result <;> simp [errorOf, Reply.ofResult]

theorem errorOf_eq_some_iff {result : Except ε Unit} {error : ε} :
    errorOf result = some error ↔ (Reply.ofResult result : Reply ε π) = .fail error := by
  cases result <;> simp [errorOf, Reply.ofResult]

/-- Among accepted lines none has an error. -/
theorem findSome?_errorOf_eq_none {answer : Bytes → Except ε Unit} {ls : List Bytes}
    (h : Accepts (fun _ line => (Reply.ofResult (answer line) : Reply ε π)) ls) :
    (ls.findSome? fun line => errorOf (answer line)) = none := by
  rw [List.findSome?_eq_none_iff]
  intro line hline
  obtain ⟨i, hi, rfl⟩ := List.mem_iff_getElem.mp hline
  exact errorOf_eq_none_iff.mpr (h i hi)

/-- **The verdict is the outcome of a visit.** -/
theorem Visited.outcome_eq_verdict {answer : Bytes → Except ε Unit} {ls : List Bytes}
    {d : Delivery ε π} (h : Visited (fun _ line => Reply.ofResult (answer line)) ls d) :
    d.outcome = verdict answer ls := by
  cases h with
  | through all => rw [verdict, findSome?_errorOf_eq_none all]
  | failed split earlier last =>
      rw [verdict, split, List.findSome?_append, findSome?_errorOf_eq_none earlier,
        Option.none_or, List.findSome?_cons, errorOf_eq_some_iff.mpr last]
  | aborted split earlier last =>
      rename_i before after line payload
      cases hanswer : answer line <;> simp [hanswer, Reply.ofResult] at last

end Linewise
