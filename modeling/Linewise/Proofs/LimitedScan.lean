import Linewise.Proofs.ScanRuns
import Linewise.Split.Limited

/-!
# The numbers in a scan

A scanner never leaves the data, so no cursor exceeds its length.  Neither does a count of
lines, since every line takes a byte of its own: the newline that ends it, or the last byte of
the line if none does.

* `Limited.getline_eq` — **a request for a line** does not fail while the scanner stands over
  data no longer than the limit;
* `Limited.forEach_eq` — **nor does a visit**, if the lines that were counted before and those
  to come are no more than the limit.
-/

namespace Linewise

namespace Scanner

/-- A scanner over the data is nowhere behind their end. -/
theorem Over.position_le {data : Bytes} {s : Scanner} (h : s.Over data) {offset : Nat}
    (hoffset : s.position = some offset) : offset ≤ data.length := by
  obtain hnone | ⟨place, hplace, hle, -⟩ := h.place
  · rw [hnone] at hoffset
    cases hoffset
  · rw [hplace] at hoffset
    cases hoffset
    exact hle

/-- It has no more lines to come than there are bytes. -/
theorem Over.length_lines_remaining_le {data : Bytes} {s : Scanner} (h : s.Over data) :
    (lines s.remaining).length ≤ data.length := by
  have hlines := length_lines_le s.remaining
  cases h with
  | reading rest cut =>
      rw [remaining, rest, List.length_drop] at hlines
      rw [remaining, rest]
      exact Nat.le_trans hlines (Nat.sub_le _ _)
  | retired => exact Nat.zero_le _

end Scanner

namespace Limited

variable {limit : Nat} {data : Bytes} {s : Scanner}

/-- **A request for a line** does not fail over data no longer than the limit. -/
theorem getline_eq (hlimit : data.length ≤ limit) (hover : s.Over data) :
    getline limit s = some s.getline := by
  have hnext : ∀ offset, s.getline.2.position = some offset → offset ≤ limit :=
    fun offset hoffset => Nat.le_trans (hover.getline.position_le hoffset) hlimit
  match s with
  | .retired => rfl
  | .reading _ [] => rfl
  | .reading offset (b :: bs) =>
      cases hdrop : (b :: bs).dropWhile inLine with
      | nil =>
          simp only [Scanner.getline, hdrop, Scanner.position, Option.some.injEq,
            forall_eq'] at hnext
          simp [getline, Scanner.getline, hdrop, sum_of_le hnext]
      | cons c later =>
          simp only [Scanner.getline, hdrop, Scanner.position, Option.some.injEq,
            forall_eq'] at hnext
          have hplace := sum_of_le (Nat.le_of_succ_le hnext)
          simp [getline, Scanner.getline, hdrop, hplace, sum_of_le hnext]

section

variable {σ ε π : Type} {visit : Visitor σ ε π} {count : Nat} {state : σ} {t : Scanner}

/-- A limited visit without a line to come is at its end. -/
theorem forEach_of_none (h : getline limit s = some (none, t)) :
    forEach limit visit count state s = some (.done count, state, t) := by
  rw [forEach]
  split <;> simp_all

/-- A limited visit with a line goes on as the visitor answers.  The count is the only
step that can fail. -/
theorem forEach_of_some {line : Bytes} (h : getline limit s = some (some line, t)) :
    forEach limit visit count state s =
      match visit state line with
      | (.accept, next) =>
          (sum limit count 1).bind fun count => forEach limit visit count next t
      | (.fail error, next) => some (.failed error, next, t)
      | (.abort payload, next) => some (.aborted payload, next, t) := by
  rw [forEach]
  split
  · simp_all
  · simp_all
  · next line' t' h' =>
      cases h.symm.trans h'
      rfl

/-- **A visit** does not fail either.  The induction is along the scan; each line accepted moves
from those to come to those counted. -/
theorem forEach_eq (hlimit : data.length ≤ limit) (hover : s.Over data)
    (hcount : count + (lines s.remaining).length ≤ limit) :
    forEach limit visit count state s = some (Scanner.forEach.loop visit count state s) := by
  induction s using Scanner.walk generalizing count state with
  | none s t h =>
      have hrequest := getline_eq hlimit hover
      rw [h] at hrequest
      rw [forEach_of_none hrequest, Scanner.forEach_loop_of_none visit h]
  | some s line t h ih =>
      have hrequest := getline_eq hlimit hover
      rw [h] at hrequest
      have hnext := hover.getline
      rw [h] at hnext
      rw [Scanner.lines_remaining_of_getline h, List.length_cons] at hcount
      have hsum : sum limit count 1 = some (count + 1) := sum_of_le (by omega)
      rw [forEach_of_some hrequest, Scanner.forEach_loop_of_some visit h]
      cases hreply : visit state line with
      | mk reply next =>
          cases reply with
          | accept =>
              simp only [hsum, Option.bind_some]
              exact ih hnext (by omega)
          | fail error => rfl
          | abort payload => rfl

end

/-- **A visit from anywhere in a scan** counts no more lines than there are bytes. -/
theorem forEach_eq_of_over {σ ε π : Type} (hlimit : data.length ≤ limit) (hover : s.Over data)
    (visit : Visitor σ ε π) (state : σ) :
    forEach limit visit 0 state s = some (s.forEach visit state) := by
  apply forEach_eq hlimit hover
  rw [Nat.zero_add]
  exact Nat.le_trans hover.length_lines_remaining_le hlimit

end Limited

end Linewise
