import Linewise.Reader.Calls

/-!
# Operations on a scanner

A user of a scanner makes one operation after the other.  Beside the two that move any
scan there are two that come with every iterator: to skip some lines and take the next
one, and to take so many lines and no more.

All of them do nothing but ask for the next line, some number of times.  What each request
was answered is not always shown: the lines that are skipped are not.  `Scanner.asked`
gives all answers of one operation, in order, and `Scanner.history` those of a run.

* `Operation`, `Operation.Answer` — the operations, and the type of the answer to each;
* `Scanner.perform` — the answer, and the scanner after it; `Scanner.run` — the scanner
  after many operations;
* `Scanner.taken` — the lines that a run has taken, whether shown or not.
-/

namespace Linewise

/-- One operation on a scanner. -/
inductive Operation (π : Type) : Type 1 where
  | pull (p : Pull π)
  /-- Skip `n` lines and take the next one. -/
  | nth (n : Nat)
  | take (n : Nat)

variable {π : Type}

/-- What an operation answers. -/
@[reducible] def Operation.Answer : Operation π → Type
  | pull p => p.Answer
  | nth _ => Option Bytes
  | take _ => List Bytes

/-- The last answer in a visit, after those that were lines: a visit that is done has
asked once more and found no line, and one that was stopped has not. -/
def Outcome.closing {ε : Type} : Outcome ε π → List (Option Bytes)
  | done _ => [none]
  | failed _ => []
  | aborted _ => []

namespace Scanner

/-- The answer to an operation, and the scanner after it. -/
def perform (s : Scanner) : (op : Operation π) → op.Answer × Scanner
  | .pull p => s.pull p
  | .nth n => s.nth n
  | .take n => s.take n

/-- The answers to all requests that an operation makes, the first of them first.  The
lines that are skipped are those that would be taken instead. -/
def asked (s : Scanner) : Operation π → List (Option Bytes)
  | .pull .getline => [s.getline.1]
  | .pull (.forEach visit state) =>
      (s.heard visit state).map some ++ (s.forEach visit state).1.closing
  | .nth n => (s.take n).1.map some ++ [(s.nth n).1]
  | .take n =>
      (s.take n).1.map some ++ if (s.take n).1.length < n then [none] else []

/-- The scanner after some operations, the first of them made first. -/
def run (s : Scanner) (ops : List (Operation π)) : Scanner :=
  ops.foldl (fun s op => (s.perform op).2) s

/-- The answers to all requests of a run. -/
def history (s : Scanner) : List (Operation π) → List (Option Bytes)
  | [] => []
  | op :: ops => s.asked op ++ (s.perform op).2.history ops

/-- The lines that a run has taken: those it has shown, those it has skipped, and those
that were handed to a visitor, the one that stopped a visit included. -/
def taken (s : Scanner) (ops : List (Operation π)) : List Bytes :=
  (s.history ops).filterMap id

@[simp] theorem run_cons (s : Scanner) (op : Operation π) (ops : List (Operation π)) :
    s.run (op :: ops) = (s.perform op).2.run ops := rfl

@[simp] theorem history_cons (s : Scanner) (op : Operation π) (ops : List (Operation π)) :
    s.history (op :: ops) = s.asked op ++ (s.perform op).2.history ops := rfl

end Scanner

end Linewise
