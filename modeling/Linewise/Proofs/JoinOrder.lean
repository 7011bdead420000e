import Mathlib.Algebra.GroupWithZero.Nat
import Linewise.Proofs.Deliveries

/-!
# The order of joining

The caller joins the workers from the lowest segment to the highest and looks at the
results only when all are joined.  So an abort wins over an error wherever the two
lie, and of several aborts, or of several errors, the one in the lowest segment wins.

* `join_eq` — the payload of the first abort, or else the sum of the results;
* `Joined` — which outcome many outcomes make, said of their order alone;
* `join_joined` — **the caller's outcome is that one**;
* `join_verdicts` — verdicts on the parts of a list join to the verdict on the list.
-/

namespace Linewise

variable {ε π : Type}

namespace Outcome

/-- The payload of an abort. -/
def payload? : Outcome ε π → Option π
  | aborted payload => some payload
  | _ => none

/-- The result of a visit that did not abort. -/
def result? : Outcome ε π → Option (Except ε Nat)
  | done count => some (.ok count)
  | failed error => some (.error error)
  | aborted _ => none

theorem payload?_eq_some_iff {o : Outcome ε π} {payload : π} :
    o.payload? = some payload ↔ o = aborted payload := by
  cases o <;> simp [payload?]

/-- Whatever has no payload is no abort. -/
theorem payload?_eq_none_iff {o : Outcome ε π} :
    o.payload? = none ↔ ∀ payload, o ≠ aborted payload := by
  cases o <;> simp [payload?]

end Outcome

namespace Tally

/-- Joining collects the results, the latest first, and keeps the first abort. -/
theorem foldl_add (outcomes : List (Outcome ε π)) (t : Tally ε π) :
    outcomes.foldl add t =
      ⟨(outcomes.filterMap Outcome.result?).reverse ++ t.results,
        t.aborted.or (outcomes.findSome? Outcome.payload?)⟩ := by
  induction outcomes generalizing t with
  | nil => simp
  | cons o outcomes ih =>
      rw [List.foldl_cons, ih, List.filterMap_cons, List.findSome?_cons]
      cases o with
      | done count => simp [add, Outcome.result?, Outcome.payload?]
      | failed error => simp [add, Outcome.result?, Outcome.payload?]
      | aborted payload =>
          simp only [add, Outcome.result?, Outcome.payload?, Option.or_assoc, Option.some_or]

/-- Counts without an error are added up. -/
theorem total_ok (counts : List Nat) (sum : Nat) :
    (total sum (counts.map .ok) : Outcome ε π) = .done (sum + counts.sum) := by
  induction counts generalizing sum with
  | nil => rfl
  | cons count counts ih =>
      rw [List.map_cons, total, ih, List.sum_cons, Nat.add_assoc]

/-- The first error ends the sum. -/
theorem total_error (counts : List Nat) (sum : Nat) (error : ε)
    (later : List (Except ε Nat)) :
    (total sum (counts.map .ok ++ .error error :: later) : Outcome ε π) = .failed error := by
  induction counts generalizing sum with
  | nil => rfl
  | cons count counts ih => exact ih (sum + count)

end Tally

/-- **The outcome of the caller.** -/
theorem join_eq (outcomes : List (Outcome ε π)) :
    join outcomes =
      match outcomes.findSome? Outcome.payload? with
      | some payload => .aborted payload
      | none => Tally.total 0 (outcomes.filterMap Outcome.result?) := by
  rw [join, Tally.foldl_add, Tally.close]
  cases outcomes.findSome? Outcome.payload? with
  | some payload => rfl
  | none => simp [Tally.empty]

/-- The outcome that many outcomes make, from the lowest segment to the highest: the
lowest abort, whatever else there is; or else the lowest error; or else the sum of all
counts. -/
inductive Joined (outcomes : List (Outcome ε π)) : Outcome ε π → Prop
  | aborted {before after : List (Outcome ε π)} {payload : π}
      (split : outcomes = before ++ .aborted payload :: after)
      (lowest : ∀ o ∈ before, ∀ p, o ≠ .aborted p) : Joined outcomes (.aborted payload)
  | failed {before after : List (Outcome ε π)} {error : ε}
      (calm : ∀ o ∈ outcomes, ∀ p, o ≠ .aborted p)
      (split : outcomes = before ++ .failed error :: after)
      (lowest : ∀ o ∈ before, ∀ e, o ≠ .failed e) : Joined outcomes (.failed error)
  | done {counts : List Nat} (all : outcomes = counts.map .done) :
      Joined outcomes (.done counts.sum)

/-- Without an abort, the outcomes are counts up to the first error. -/
theorem counts_of_calm {outcomes : List (Outcome ε π)}
    (calm : ∀ o ∈ outcomes, ∀ p, o ≠ .aborted p) :
    ∃ counts : List Nat, outcomes = counts.map .done ∨
      ∃ error after, outcomes = counts.map .done ++ .failed error :: after := by
  induction outcomes with
  | nil => exact ⟨[], Or.inl rfl⟩
  | cons o outcomes ih =>
      cases o with
      | aborted payload => exact absurd rfl (calm _ List.mem_cons_self payload)
      | failed error => exact ⟨[], Or.inr ⟨error, outcomes, rfl⟩⟩
      | done count =>
          obtain ⟨counts, hall | ⟨error, after, hsplit⟩⟩ :=
            ih fun o ho => calm o (List.mem_cons_of_mem _ ho)
          · exact ⟨count :: counts, Or.inl (by rw [hall, List.map_cons])⟩
          · exact ⟨count :: counts, Or.inr ⟨error, after, by rw [hsplit]; rfl⟩⟩

private theorem filterMap_result?_done (counts : List Nat) :
    (counts.map (.done : Nat → Outcome ε π)).filterMap Outcome.result? = counts.map .ok := by
  rw [List.filterMap_map]
  exact congrFun List.filterMap_eq_map counts

/-- **The caller's outcome** is the lowest abort, or else the lowest error, or else the
sum of the counts. -/
theorem join_joined (outcomes : List (Outcome ε π)) : Joined outcomes (join outcomes) := by
  rw [join_eq]
  cases hfirst : outcomes.findSome? Outcome.payload? with
  | some payload =>
      obtain ⟨before, o, after, hsplit, ho, hbefore⟩ := List.findSome?_eq_some_iff.mp hfirst
      rw [Outcome.payload?_eq_some_iff.mp ho] at hsplit
      exact Joined.aborted hsplit fun o ho => Outcome.payload?_eq_none_iff.mp (hbefore o ho)
  | none =>
      have calm : ∀ o ∈ outcomes, ∀ p, o ≠ .aborted p := fun o ho =>
        Outcome.payload?_eq_none_iff.mp (List.findSome?_eq_none_iff.mp hfirst o ho)
      obtain ⟨counts, hall | ⟨error, after, hsplit⟩⟩ := counts_of_calm calm
      · have htotal : Tally.total 0 (outcomes.filterMap Outcome.result?) =
            (.done counts.sum : Outcome ε π) := by
          rw [hall, filterMap_result?_done, Tally.total_ok, Nat.zero_add]
        rw [htotal]
        exact Joined.done hall
      · -- What comes after the first error is collected, but never added up.
        have htotal : Tally.total 0 (outcomes.filterMap Outcome.result?) =
            (.failed error : Outcome ε π) := by
          rw [hsplit, List.filterMap_append, filterMap_result?_done, List.filterMap_cons]
          exact Tally.total_error counts 0 error _
        rw [htotal]
        refine Joined.failed calm hsplit ?_
        intro o ho e heq
        obtain ⟨count, -, hcount⟩ := List.mem_map.mp ho
        rw [heq] at hcount
        cases hcount

/-- A verdict is never an abort. -/
theorem verdict_payload? (answer : Bytes → Except ε Unit) (ls : List Bytes) :
    (verdict answer ls : Outcome ε π).payload? = none := by
  unfold verdict
  split <;> rfl

/-- The results of verdicts add up to the verdict on all the lines.  The first part with
an error is the part of the first line that has one. -/
private theorem total_verdicts (answer : Bytes → Except ε Unit) (parts : List (List Bytes))
    (sum : Nat) :
    (Tally.total sum ((parts.map fun ls =>
        (verdict answer ls : Outcome ε π)).filterMap Outcome.result?) : Outcome ε π) =
      match parts.flatten.findSome? fun line => errorOf (answer line) with
      | some error => .failed error
      | none => .done (sum + parts.flatten.length) := by
  induction parts generalizing sum with
  | nil => rfl
  | cons ls parts ih =>
      rw [List.map_cons, List.filterMap_cons, List.flatten_cons, List.findSome?_append,
        verdict]
      cases hfirst : ls.findSome? fun line => errorOf (answer line) with
      | some error => rfl
      | none =>
          simp only [Outcome.result?, Tally.total, Option.none_or, ih, List.length_append,
            Nat.add_assoc]

/-- **Verdicts on the parts** join to the verdict on the whole. -/
theorem join_verdicts (answer : Bytes → Except ε Unit) (parts : List (List Bytes)) :
    join (parts.map fun ls => (verdict answer ls : Outcome ε π)) =
      verdict answer parts.flatten := by
  have hcalm : (parts.map fun ls => (verdict answer ls : Outcome ε π)).findSome?
      Outcome.payload? = none := by
    rw [List.findSome?_eq_none_iff]
    intro o ho
    obtain ⟨ls, -, rfl⟩ := List.mem_map.mp ho
    exact verdict_payload? answer ls
  have htotal := total_verdicts (π := π) answer parts 0
  rw [join_eq, hcalm, verdict]
  cases hfirst : parts.flatten.findSome? fun line => errorOf (answer line) with
  | some error =>
      rw [hfirst] at htotal
      exact htotal
  | none =>
      rw [hfirst, Nat.zero_add] at htotal
      exact htotal

end Linewise
