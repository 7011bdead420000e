import Linewise.Proofs.ScanLines

/-!
# The course of a visit

A visit asks for a line, hands it out, and asks again if the line was accepted.  It is
over when there is no line, when the visitor fails, or when the visitor aborts.  `Course`
says this step by step, and what holds of every visit is shown along it.

* `Scanner.Course` — how a visit goes; `Scanner.course_forEach` — every visit goes so,
  and `Scanner.Course.eq_loop` — only in that way;
* `Scanner.forEach_forget` — a visitor that keeps less in mind makes the same visit;
* `Scanner.forEach_invariant` — **what every request keeps, every visit keeps**, however
  it ends;
* `Scanner.forEach_of_accept` — a visit that is never stopped counts what remains;
* `Scanner.forEach_ne_aborted` — a visit is aborted only by its visitor.
-/

namespace Linewise

namespace Scanner

variable {σ τ ε π : Type}

/-- How a visit goes on after `count` accepted lines, up to its outcome, the visitor's
last state, and the scanner past the last line handed out. -/
inductive Course (visit : Visitor σ ε π) :
    Nat → σ → Scanner → Outcome ε π × σ × Scanner → Prop
  | done {count : Nat} {state : σ} {s t : Scanner} (rest : s.getline = (none, t)) :
      Course visit count state s (.done count, state, t)
  | accepted {count : Nat} {state next : σ} {s t : Scanner} {line : Bytes}
      {result : Outcome ε π × σ × Scanner} (taken : s.getline = (some line, t))
      (reply : visit state line = (.accept, next))
      (later : Course visit (count + 1) next t result) : Course visit count state s result
  | failed {count : Nat} {state next : σ} {s t : Scanner} {line : Bytes} {error : ε}
      (taken : s.getline = (some line, t)) (reply : visit state line = (.fail error, next)) :
      Course visit count state s (.failed error, next, t)
  | aborted {count : Nat} {state next : σ} {s t : Scanner} {line : Bytes} {payload : π}
      (taken : s.getline = (some line, t))
      (reply : visit state line = (.abort payload, next)) :
      Course visit count state s (.aborted payload, next, t)

/-- The loop of a visit runs a course. -/
theorem course_loop (visit : Visitor σ ε π) (count : Nat) (state : σ) (s : Scanner) :
    Course visit count state s (forEach.loop visit count state s) := by
  induction s using walk generalizing count state with
  | none s t h =>
      rw [forEach_loop_of_none _ h]
      exact Course.done h
  | some s line t h ih =>
      rw [forEach_loop_of_some _ h]
      cases hvisit : visit state line with
      | mk reply next =>
          cases reply with
          | accept => exact Course.accepted h hvisit (ih (count + 1) next)
          | fail error => exact Course.failed h hvisit
          | abort payload => exact Course.aborted h hvisit

/-- **Every visit** goes its course. -/
theorem course_forEach (visit : Visitor σ ε π) (state : σ) (s : Scanner) :
    Course visit 0 state s (s.forEach visit state) :=
  course_loop visit 0 state s

namespace Course

variable {visit : Visitor σ ε π} {count : Nat} {state : σ} {s : Scanner}
  {result : Outcome ε π × σ × Scanner}

/-- A visit can go in one way only. -/
theorem eq_loop (h : Course visit count state s result) :
    forEach.loop visit count state s = result := by
  induction h with
  | done rest => exact forEach_loop_of_none visit rest _ _
  | accepted taken reply later ih =>
      rw [forEach_loop_of_some _ taken, reply]
      exact ih
  | failed taken reply => rw [forEach_loop_of_some _ taken, reply]
  | aborted taken reply => rw [forEach_loop_of_some _ taken, reply]

/-- A visitor that keeps less in mind goes the same course, as long as what it forgets
has no influence on its replies. -/
theorem forget {less : Visitor τ ε π} (forget : σ → τ)
    (hsame : ∀ state line,
      less (forget state) line = ((visit state line).1, forget (visit state line).2))
    (h : Course visit count state s result) :
    Course less count (forget state) s (result.1, forget result.2.1, result.2.2) := by
  induction h with
  | done rest => exact done rest
  | accepted taken reply later ih => exact accepted taken (by rw [hsame, reply]) ih
  | failed taken reply => exact failed taken (by rw [hsame, reply])
  | aborted taken reply => exact aborted taken (by rw [hsame, reply])

/-- What every request keeps, a visit keeps. -/
theorem invariant {motive : Scanner → Prop} (step : ∀ s, motive s → motive s.getline.2)
    (h : Course visit count state s result) (hs : motive s) : motive result.2.2 := by
  have hnext : ∀ {s t : Scanner} {line : Option Bytes},
      s.getline = (line, t) → motive s → motive t := by
    intro s t line hget hs
    have hstep := step s hs
    rwa [hget] at hstep
  induction h with
  | done rest => exact hnext rest hs
  | accepted taken reply later ih => exact ih (hnext taken hs)
  | failed taken reply => exact hnext taken hs
  | aborted taken reply => exact hnext taken hs

/-- A visitor that accepts every line counts the lines to come. -/
theorem outcome_of_accept (haccept : ∀ state line, (visit state line).1 = .accept)
    (h : Course visit count state s result) :
    result.1 = .done (count + (lines s.remaining).length) := by
  induction h with
  | done rest =>
      rw [remaining_of_getline_none rest]
      rfl
  | accepted taken reply later ih =>
      rw [ih, lines_remaining_of_getline taken, List.length_cons, Nat.add_assoc,
        Nat.add_comm 1]
  | @failed count state next s t line error taken reply =>
      have hfirst := haccept state line
      rw [reply] at hfirst
      cases hfirst
  | @aborted count state next s t line payload taken reply =>
      have hfirst := haccept state line
      rw [reply] at hfirst
      cases hfirst

/-- A visitor that never aborts does not abort the visit. -/
theorem ne_aborted (steady : ∀ state line payload, (visit state line).1 ≠ .abort payload)
    (h : Course visit count state s result) (payload : π) : result.1 ≠ .aborted payload := by
  induction h with
  | done rest => exact nofun
  | accepted taken reply later ih => exact ih
  | failed taken reply => exact nofun
  | @aborted count state next s t line payload taken reply =>
      exact absurd (congrArg Prod.fst reply) (steady state line payload)

end Course

/-- **A visitor that keeps less in mind** makes the same visit, as long as what it forgets
has no influence on its replies. -/
theorem forEach_forget (forget : σ → τ) {full : Visitor σ ε π} {less : Visitor τ ε π}
    (hsame : ∀ state line,
      less (forget state) line = ((full state line).1, forget (full state line).2))
    (state : σ) (s : Scanner) :
    s.forEach less (forget state) =
      ((s.forEach full state).1, forget (s.forEach full state).2.1,
        (s.forEach full state).2.2) :=
  ((course_forEach full state s).forget forget hsame).eq_loop

/-- So it gives the same outcome. -/
theorem forEach_map (forget : σ → τ) {full : Visitor σ ε π} {less : Visitor τ ε π}
    (hsame : ∀ state line,
      less (forget state) line = ((full state line).1, forget (full state line).2))
    (state : σ) (s : Scanner) :
    (s.forEach less (forget state)).1 = (s.forEach full state).1 := by
  rw [forEach_forget forget hsame]

/-- **What every request keeps, every visit keeps**, however it ends. -/
theorem forEach_invariant {motive : Scanner → Prop}
    (step : ∀ s, motive s → motive s.getline.2) (visit : Visitor σ ε π) (state : σ)
    {s : Scanner} (h : motive s) : motive (s.forEach visit state).2.2 :=
  (course_forEach visit state s).invariant step h

/-- **A visit that is never stopped** counts the lines that remain. -/
theorem forEach_of_accept {visit : Visitor σ ε π}
    (haccept : ∀ state line, (visit state line).1 = .accept) (state : σ) (s : Scanner) :
    (s.forEach visit state).1 = .done (lines s.remaining).length := by
  have houtcome := (course_forEach visit state s).outcome_of_accept haccept
  rwa [Nat.zero_add] at houtcome

/-- A visit is aborted only by its visitor. -/
theorem forEach_ne_aborted {visit : Visitor σ ε π}
    (steady : ∀ state line payload, (visit state line).1 ≠ .abort payload) (state : σ)
    (s : Scanner) (payload : π) : (s.forEach visit state).1 ≠ .aborted payload :=
  (course_forEach visit state s).ne_aborted steady payload

/-- A retired scanner has no line to visit. -/
theorem forEach_retired (visit : Visitor σ ε π) (state : σ) :
    retired.forEach visit state = (.done 0, state, retired) :=
  (Course.done rfl).eq_loop

end Scanner

end Linewise
