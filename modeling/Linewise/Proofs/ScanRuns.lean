import Linewise.Proofs.ScanCursor
import Linewise.Scanner.Operations

/-!
# Runs of a scanner

Every operation on a scanner is a sequence of requests for the next line, and differs from
the others only in when it stops asking.  `Asks` forgets that difference.  What holds of a
run is shown of one request, and from there of any number of them, in whatever operations
they were made.

* `Scanner.Asks` — requests that lead from one scanner to another, with their answers;
* `Scanner.asks_perform` — one operation is such a sequence, whether it comes to its own
  end, finds no line, or is stopped by a visitor; `Scanner.asks_run` — so is a run;
* `Scanner.forEach_recording` — noting down the lines of a visit changes nothing in it;
* `Scanner.Asks.lines_eq` — no line is lost or taken twice;
* `Scanner.Asks.eof_iff` — the scanner retires at the first request without a line;
* `run_takes_lines_in_order` — **the state of a scanner after any operations.**
-/

namespace Linewise

variable {π : Type}

namespace Scanner

/-- Requests for a line, made one after the other, lead from one scanner to another. -/
inductive Asks : Scanner → List (Option Bytes) → Scanner → Prop
  | none (s : Scanner) : Asks s [] s
  | more {s t u : Scanner} {answer : Option Bytes} {later : List (Option Bytes)}
      (request : s.getline = (answer, t)) (rest : Asks t later u) : Asks s (answer :: later) u

namespace Asks

variable {s t u : Scanner} {answers more : List (Option Bytes)}

theorem one {answer : Option Bytes} (request : s.getline = (answer, t)) :
    Asks s [answer] t :=
  Asks.more request (Asks.none t)

theorem append (h : Asks s answers t) (hmore : Asks t more u) : Asks s (answers ++ more) u := by
  induction h with
  | none s => exact hmore
  | more request rest ih => exact Asks.more request (ih hmore)

/-- **No line is lost or taken twice.** -/
theorem lines_eq (h : Asks s answers t) :
    lines s.remaining = answers.filterMap id ++ lines t.remaining := by
  induction h with
  | none s => rfl
  | @more s t u answer later request rest ih =>
      cases answer with
      | none =>
          have hleft : t.remaining = [] := by rw [retired_of_getline_none request]; rfl
          rw [hleft] at ih
          rw [remaining_of_getline_none request, ih, List.filterMap_cons_none rfl]
      | some line =>
          have htaken : (some line :: later).filterMap id = line :: later.filterMap id :=
            List.filterMap_cons_some rfl
          rw [lines_remaining_of_getline request, ih, htaken, List.cons_append]

/-- **A scanner retires** at the first request without a line, and at no other. -/
theorem eof_iff (h : Asks s answers t) :
    t.eof = true ↔ s.eof = true ∨ Option.none ∈ answers := by
  induction h with
  | none s => simp
  | @more s t u answer later request rest ih =>
      rw [ih, List.mem_cons]
      cases answer with
      | none =>
          have hend : t.eof = true := by rw [retired_of_getline_none request]; rfl
          simp [hend]
      | some line =>
          -- Neither side of a request that takes a line is retired.
          obtain ⟨offset, hposition⟩ := position_of_getline request
          have hgoing : t.eof = false := by
            cases t with
            | reading => rfl
            | retired => cases hposition
          have hbefore : s.eof = false := by
            cases s with
            | reading => rfl
            | retired => cases request
          simp [hgoing, hbefore]

/-- Requests keep a scanner over its data. -/
theorem stays_over {data : Bytes} (h : Asks s answers t) (hs : s.Over data) : t.Over data := by
  induction h with
  | none s => exact hs
  | @more s t u answer later request rest ih =>
      have hnext := hs.getline
      rw [request] at hnext
      exact ih hnext

/-- **A retired scanner** answers every request by no line and stays retired. -/
theorem of_retired (h : Asks retired answers t) :
    t = retired ∧ ∀ answer ∈ answers, answer = Option.none := by
  generalize hs : retired = s at h
  induction h with
  | none s => exact ⟨rfl, by simp⟩
  | @more s t u answer later request rest ih =>
      subst hs
      cases request
      obtain ⟨hend, hlater⟩ := ih rfl
      refine ⟨hend, ?_⟩
      intro answer hmem
      rcases List.mem_cons.mp hmem with rfl | hmem
      · rfl
      · exact hlater answer hmem

end Asks

/-! ## Every operation is a sequence of requests -/

/-- The lines taken so far stay in front. -/
private theorem take_loop_eq (n : Nat) (s : Scanner) (taken : List Bytes) :
    take.loop n s taken = (taken.reverse ++ (s.take n).1, (s.take n).2) := by
  induction n generalizing s taken with
  | zero => simp [take, take.loop]
  | succ n ih =>
      rw [take, take.loop, take.loop]
      split
      · simp
      · next line t h =>
          rw [ih t (line :: taken), ih t [line]]
          simp

/-- Where there is no line to come, none is taken. -/
theorem take_of_none {s t : Scanner} (h : s.getline = (none, t)) (n : Nat) :
    s.take (n + 1) = ([], t) := by
  simp [take, take.loop, h]

/-- The first line is taken, and the others behind it. -/
theorem take_of_some {s t : Scanner} {line : Bytes} (h : s.getline = (some line, t)) (n : Nat) :
    s.take (n + 1) = (line :: (t.take n).1, (t.take n).2) := by
  simp [take, take.loop, h, take_loop_eq n t [line]]

/-- Taking asks until it has its lines, or until there is none. -/
theorem asks_take (n : Nat) (s : Scanner) :
    Asks s (s.asked (.take n : Operation π)) (s.take n).2 := by
  induction n generalizing s with
  | zero => exact Asks.none s
  | succ n ih =>
      cases h : s.getline with
      | mk line t =>
          cases line with
          | none =>
              simp only [asked, take_of_none h]
              exact Asks.one h
          | some line =>
              have hlater := ih t
              simp only [asked] at hlater
              simp only [asked, take_of_some h, List.map_cons, List.length_cons,
                Nat.add_lt_add_iff_right, List.cons_append]
              exact Asks.more h hlater

/-- Skipping asks as taking does, and once more unless there was no line. -/
theorem asks_nth (n : Nat) (s : Scanner) :
    Asks s (s.asked (.nth n : Operation π)) (s.nth n).2 := by
  induction n generalizing s with
  | zero => exact Asks.one rfl
  | succ n ih =>
      cases h : s.getline with
      | mk line t =>
          cases line with
          | none =>
              simp only [asked, take_of_none h, nth, h]
              exact Asks.one h
          | some line =>
              have hlater := ih t
              simp only [asked] at hlater
              simp only [asked, take_of_some h, nth, h, List.map_cons, List.cons_append]
              exact Asks.more h hlater

/-- A visit asks for the lines that it hands out, and once more if it was not stopped.
The induction is along the course of the visit whose visitor notes its lines down. -/
private theorem Course.asks {σ ε : Type} {visit : Visitor σ ε π} {count : Nat}
    {state : σ × Log} {s : Scanner} {result : Outcome ε π × (σ × Log) × Scanner}
    (h : Course (recording visit) count state s result) :
    ∃ heard, result.2.1.2.seen = state.2.seen ++ heard ∧
      Asks s (heard.map some ++ result.1.closing) result.2.2 := by
  have hlog : ∀ {state next : σ × Log} {line : Bytes} {reply : Reply ε π},
      recording visit state line = (reply, next) → next.2.seen = state.2.seen ++ [line] := by
    intro state next line reply hvisit
    have hnext : next = (recording visit state line).2 := by rw [hvisit]
    rw [hnext]
    exact Log.seen_add state.2 line
  induction h with
  | done rest => exact ⟨[], by simp, Asks.one rest⟩
  | @accepted count state next s t line result taken reply later ih =>
      obtain ⟨heard, hseen, hasks⟩ := ih
      refine ⟨line :: heard, ?_, Asks.more taken hasks⟩
      rw [hseen, hlog reply, List.append_assoc]
      rfl
  | @failed count state next s t line error taken reply =>
      exact ⟨[line], hlog reply, Asks.one taken⟩
  | @aborted count state next s t line payload taken reply =>
      exact ⟨[line], hlog reply, Asks.one taken⟩

/-- **Noting down the lines** that a visitor is given changes nothing in its visit. -/
theorem forEach_recording {σ ε : Type} (visit : Visitor σ ε π) (state : σ) (log : Log)
    (s : Scanner) :
    let noted := s.forEach (recording visit) (state, log)
    s.forEach visit state = (noted.1, noted.2.1.1, noted.2.2) :=
  forEach_forget Prod.fst (fun _ _ => rfl) (state, log) s

/-- A visit makes requests until it is stopped or finds no line. -/
theorem asks_forEach {σ ε : Type} (visit : Visitor σ ε π) (state : σ) (s : Scanner) :
    Asks s (s.asked (.pull (.forEach visit state))) (s.forEach visit state).2.2 := by
  obtain ⟨heard, hseen, hasks⟩ := (course_forEach (recording visit) (state, Log.empty) s).asks
  rw [Log.seen_empty, List.nil_append] at hseen
  rw [asked, Scanner.heard, hseen, forEach_recording visit state Log.empty s]
  exact hasks

/-- **One operation** is a sequence of requests. -/
theorem asks_perform (s : Scanner) (op : Operation π) :
    Asks s (s.asked op) (s.perform op).2 := by
  cases op with
  | pull p =>
      cases p with
      | getline => exact Asks.one rfl
      | forEach visit state => exact asks_forEach visit state s
  | nth n => exact asks_nth n s
  | take n => exact asks_take n s

/-- A run of operations makes the requests of each in turn. -/
theorem asks_run (s : Scanner) (ops : List (Operation π)) :
    Asks s (s.history ops) (s.run ops) := by
  induction ops generalizing s with
  | nil => exact Asks.none s
  | cons op ops ih =>
      rw [history_cons, run_cons]
      exact (asks_perform s op).append (ih (s.perform op).2)

/-- A fresh scanner has found the end only if it has no bytes. -/
theorem eof_ofBytes (data : Bytes) : (ofBytes data).eof = true ↔ data = [] := by
  cases data with
  | nil => exact ⟨fun _ => rfl, fun _ => rfl⟩
  | cons b bs => exact ⟨nofun, nofun⟩

/-- A scanner that has found the end has nothing else to remember. -/
theorem eq_retired_of_eof {s : Scanner} (h : s.eof = true) : s = retired := by
  cases s with
  | reading => cases h
  | retired => rfl

end Scanner

/-- **The state of a scanner after any operations.**  All that a run does is to ask for
lines, one after the other.  The lines that it has taken, and after them the lines of what
remains, are the lines of the whole.  The scanner stands between two lines and has the bytes
from there on before it, unless it is retired, and it is retired exactly if the bytes were
none from the start or a request was answered by no line.  A retired scanner has no bytes
before it, and answers every further request by no line. -/
theorem run_takes_lines_in_order (data : Bytes) (ops : List (Operation π)) :
    let start := Scanner.ofBytes data
    let now := start.run ops
    Scanner.Asks start (start.history ops) now ∧
      start.taken ops ++ (Scanner.ofBytes now.remaining).rest = start.rest ∧
      (now.position = none ∨ ∃ offset, now.position = some offset ∧ offset ≤ data.length ∧
        now.remaining = data.drop offset ∧
        (offset = 0 ∨ offset = data.length ∨ BehindNewline data offset)) ∧
      (now.eof = true ↔ data = [] ∨ none ∈ start.history ops) ∧
      (now.eof = true → ∀ more : List (Operation π),
        (∀ answer ∈ now.history more, answer = none) ∧
        (now.run more).remaining = [] ∧ (now.run more).eof = true) := by
  intro start now
  have hasks : Scanner.Asks start (start.history ops) now := Scanner.asks_run start ops
  refine ⟨hasks, ?_, ?_, ?_, ?_⟩
  · rw [Scanner.rest_ofBytes, Scanner.rest_eq, hasks.lines_eq]
    rfl
  · exact (hasks.stays_over (Scanner.over_ofBytes data)).place
  · rw [hasks.eof_iff, Scanner.eof_ofBytes]
  · intro hend more
    have hlater := Scanner.asks_run now more
    rw [Scanner.eq_retired_of_eof hend] at hlater ⊢
    obtain ⟨hstays, hnone⟩ := hlater.of_retired
    rw [hstays]
    exact ⟨hnone, rfl, rfl⟩

/-- To take one line of one leaves the scanner at the end, and to skip it retires the
scanner. -/
example :
    let start := Scanner.ofBytes [97, 10]
    (start.run [(.take 1 : Operation Unit)]).eof = false ∧
      (start.run [(.nth 1 : Operation Unit)]).eof = true := by
  decide

end Linewise
