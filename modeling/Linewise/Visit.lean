import Linewise.Bytes

/-!
# Visitors

A visitor is handed one line after the other and answers each with a `Reply`.
It keeps a state of its own from call to call, so that what it has seen is a
value and not an effect.  Whoever hands out the lines stops at the first reply
that is not `accept` and reports an `Outcome`.

The two ways to stop are different.  An error is an answer: the giver of the
lines settles its own state before it reports it.  An abort tears the giver
down where it stands, and nothing after the call is done.
-/

namespace Linewise

/-- A visitor's answer to one line. -/
inductive Reply (ε π : Type) where
  | accept
  | fail (error : ε)
  | abort (payload : π)
  deriving Repr, DecidableEq

/-- The reply of a visitor that may fail but does not break off. -/
def Reply.ofResult {ε π : Type} : Except ε Unit → Reply ε π
  | .ok _ => .accept
  | .error error => .fail error

/-- How a visit of many lines ended. -/
inductive Outcome (ε π : Type) where
  /-- Every line was accepted; so many there were. -/
  | done (count : Nat)
  | failed (error : ε)
  | aborted (payload : π)
  deriving Repr, DecidableEq

/-- A visitor with a state: its reply to a line, and the state it goes on with. -/
abbrev Visitor (σ ε π : Type) := σ → Bytes → Reply ε π × σ

/-- What a visitor has been given so far. -/
structure Log where
  calls : Nat
  /-- The lines, the latest first. -/
  latest : List Bytes

namespace Log

/-- No call yet. -/
def empty : Log := ⟨0, []⟩

/-- One more call. -/
def add (log : Log) (line : Bytes) : Log :=
  ⟨log.calls + 1, line :: log.latest⟩

/-- The lines given, in the order in which they were given. -/
def seen (log : Log) : List Bytes := log.latest.reverse

@[simp] theorem seen_empty : empty.seen = [] := rfl

@[simp] theorem seen_add (log : Log) (line : Bytes) :
    (log.add line).seen = log.seen ++ [line] := by
  simp [add, seen]

end Log

/-- The visitor that replies by a rule on the number of the call, counted from
zero, and the line, and logs each line before it replies. -/
def logged {ε π : Type} (reply : Nat → Bytes → Reply ε π) : Visitor Log ε π :=
  fun log line => (reply log.calls line, log.add line)

end Linewise
