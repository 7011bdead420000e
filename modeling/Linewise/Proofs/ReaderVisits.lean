import Linewise.Proofs.ReaderScan
import Linewise.Proofs.VisitStops

/-!
# What a visit leaves of a reader

A visit runs on a copy of the cursor, and the copy has gone behind each line that was handed
out when the visit ends.  What becomes of the reader depends on the way in which it ends.  A
visitor that fails has taken its lines: the reader goes on behind the line that it failed
on, and it has not ended, not even if that line was the last.  A visitor that aborts has
taken nothing: the reader is what it was.  A visitor that accepts every line has taken all
there is, and then the reader has ended.

* `Reader.Sound.going_of_rest` — a reader with a line to read has not ended;
* `Reader.forEach_of_accepts`, `Reader.Sound.forEach_of_fail`, `Reader.forEach_of_abort` —
  the three ways;
* `visit_leaves_what_it_did_not_take` — **the reader after a visit**, from any state that
  calls lead to.
-/

namespace Linewise

variable {σ ε π : Type} {content : Bytes} {visit : Visitor σ ε π} {state mid last : σ}
  {before after : List Bytes} {line : Bytes}

namespace Reader

variable {r : Reader}

/-- A reader with a line to read has not ended, and its file is mapped. -/
theorem Sound.going_of_rest (h : Sound content r) (hrest : r.scan.rest ≠ []) :
    r.eof = false ∧ r.isMapped = true := by
  have hgoing : r.eof = false := by
    cases hend : r.eof with
    | false => rfl
    | true =>
        rw [scan_eq_retired_iff.mpr hend] at hrest
        exact absurd (Scanner.rest_eq _) hrest
  have hmapped := h.eof_eq.1
  rw [hgoing] at hmapped
  exact ⟨hgoing, by simpa using hmapped⟩

/-- **All lines accepted**: the reader has ended. -/
theorem forEach_of_accepts (haccepts : visit.Accepts state r.scan.rest last) :
    r.forEach visit state = (.done r.scan.rest.length, last, r.unmap) := by
  rw [Scanner.rest_eq] at haccepts ⊢
  rw [forEach, Scanner.forEach_of_accepts haccepts]
  rfl

/-- **A line failed on**: the reader goes on behind it. -/
theorem Sound.forEach_of_fail {error : ε} (h : Sound content r)
    (hrest : r.scan.rest = before ++ line :: after) (haccepts : visit.Accepts state before mid)
    (hreply : visit mid line = (.fail error, last)) :
    ∃ next, r.forEach visit state = (.failed error, last, next) ∧ next.isMapped = true ∧
      next.eof = false ∧ next.scan.rest = after := by
  obtain ⟨-, hmapped⟩ := h.going_of_rest (by simp [hrest])
  rw [Scanner.rest_eq] at hrest
  obtain ⟨t, offset, hvisit, hposition, hafter⟩ :=
    Scanner.forEach_of_stops hrest haccepts hreply (Reply.Stops.failed error)
  have hscan : (r.forEach visit state).2.2.scan = t := by
    rw [(h.forEach visit state).2 (by simp [hvisit]), hvisit]
  have hnext : r.forEach visit state = (.failed error, last, { r with cursor := some offset }) := by
    simp only [Reader.forEach, hvisit, hposition]
    rfl
  refine ⟨_, hnext, hmapped, rfl, ?_⟩
  rw [hnext] at hscan
  rw [hscan, Scanner.rest_eq, hafter]

/-- **A line aborted on**: the reader is what it was. -/
theorem forEach_of_abort {payload : π} (hrest : r.scan.rest = before ++ line :: after)
    (haccepts : visit.Accepts state before mid)
    (hreply : visit mid line = (.abort payload, last)) :
    r.forEach visit state = (.aborted payload, last, r) := by
  rw [Scanner.rest_eq] at hrest
  obtain ⟨t, offset, hvisit, -⟩ :=
    Scanner.forEach_of_stops hrest haccepts hreply (Reply.Stops.aborted payload)
  rw [forEach, hvisit]

/-- A visitor that accepts all lines is given all of them. -/
theorem heard_of_accepts (haccepts : visit.Accepts state r.scan.rest last) :
    r.heard visit state = r.scan.rest := by
  rw [Scanner.rest_eq] at haccepts ⊢
  rw [r.heard_eq, Scanner.heard_of_accepts haccepts]

/-- A visitor that stops on a line is given the lines up to that one. -/
theorem heard_of_stops {reply : Reply ε π} {outcome : Outcome ε π}
    (hrest : r.scan.rest = before ++ line :: after) (haccepts : visit.Accepts state before mid)
    (hreply : visit mid line = (reply, last)) (hstop : reply.Stops outcome) :
    r.heard visit state = before ++ [line] := by
  rw [Scanner.rest_eq] at hrest
  rw [r.heard_eq, Scanner.heard_of_stops hrest haccepts hreply hstop]

end Reader

/-- **The reader after a visit**, whatever calls were made before.  If the visitor fails on a
line, it was given the lines up to that one; the reader is still mapped, has not ended, and
has the lines behind it to read.  If the visitor aborts on a line, it was given the same
lines, but the reader is what it was and has all of them to read.  If the visitor accepts
all lines, their number is the answer, and the reader has ended and is not mapped.  One of
the three is the case. -/
theorem visit_leaves_what_it_did_not_take [Platform] {files : FileSystem} {path : Path}
    {r : Reader} (hfile : files.Holds path content) (hopen : Reader.openFile files path = .ok r)
    (calls : List (Call π)) (visit : Visitor σ ε π) (state : σ) :
    let now := r.run calls
    let unread := now.scan.rest
    let outcome := (now.forEach visit state).1
    let next := (now.forEach visit state).2.2
    let heard := now.heard visit state
    (∀ before line after mid last error, unread = before ++ line :: after →
      visit.Accepts state before mid → visit mid line = (.fail error, last) →
        outcome = .failed error ∧ heard = before ++ [line] ∧
          next.isMapped = true ∧ next.eof = false ∧ next.scan.rest = after) ∧
      (∀ before line after mid last payload, unread = before ++ line :: after →
        visit.Accepts state before mid → visit mid line = (.abort payload, last) →
          outcome = .aborted payload ∧ heard = before ++ [line] ∧
            next = now ∧ next.isMapped = true ∧ next.scan.rest = unread) ∧
      (∀ last, visit.Accepts state unread last →
        outcome = .done unread.length ∧ heard = unread ∧
          next.eof = true ∧ next.isMapped = false) ∧
      ((∃ last, visit.Accepts state unread last) ∨
        ∃ before line after mid, unread = before ++ line :: after ∧
          visit.Accepts state before mid ∧ (visit mid line).1 ≠ .accept) := by
  intro now unread outcome next heard
  have hsound : Reader.Sound content now := (Reader.of_openFile hfile hopen).1.run calls
  refine ⟨?_, ?_, ?_, visit.accepts_or_stops state unread⟩
  · intro before line after mid last error hrest haccepts hreply
    obtain ⟨stored, hvisit, hmapped, hgoing, hafter⟩ :=
      hsound.forEach_of_fail hrest haccepts hreply
    have hheard := Reader.heard_of_stops hrest haccepts hreply (Reply.Stops.failed error)
    have hnext : next = stored := by simp only [next, hvisit]
    have houtcome : outcome = .failed error := by simp only [outcome, hvisit]
    rw [hnext]
    exact ⟨houtcome, hheard, hmapped, hgoing, hafter⟩
  · intro before line after mid last payload hrest haccepts hreply
    have hvisit := Reader.forEach_of_abort hrest haccepts hreply
    have hheard := Reader.heard_of_stops hrest haccepts hreply (Reply.Stops.aborted payload)
    -- A line was to come, so there is a mapping, and an abort stores nothing.
    obtain ⟨-, hmapped⟩ := hsound.going_of_rest (by
      change unread ≠ []
      rw [hrest]
      simp)
    have hnext : next = now := by simp only [next, hvisit]
    have houtcome : outcome = .aborted payload := by simp only [outcome, hvisit]
    rw [hnext]
    exact ⟨houtcome, hheard, rfl, hmapped, rfl⟩
  · intro last haccepts
    have hvisit := Reader.forEach_of_accepts haccepts
    have hnext : next = now.unmap := by simp only [next, hvisit]
    have houtcome : outcome = .done unread.length := by simp only [outcome, hvisit, unread]
    rw [hnext]
    exact ⟨houtcome, Reader.heard_of_accepts haccepts, rfl, rfl⟩

/-- Two lines are left when visitors come that accept the first of them.  One fails on the
last line and leaves the reader before its end with nothing to read, one aborts there and
leaves both lines, and one accepts it and leaves the reader at its end. -/
theorem visit_leaves_what_it_did_not_take_on_the_last_line :
    let content : Bytes := [97, 10, 98, 10, 99]
    let files : FileSystem := fun _ => .ok (.regular content)
    let r : Reader := ⟨⟨[120], some content⟩, some 0⟩
    let now := r.run [(.pull .getline : Call Nat)]
    let visit : Reply Nat Nat → Visitor Nat Nat Nat := fun reply given _ =>
      (if given = 0 then .accept else reply, given + 1)
    files.Holds [120] content ∧
      Reader.openFile files [120] = .ok r ∧
      now.scan.rest = [[98]] ++ [99] :: [] ∧
      (∀ reply, (visit reply).Accepts 0 [[98]] 1) ∧
      (∀ reply, visit reply 1 [99] = (reply, 2)) ∧
      (now.forEach (visit (.fail 7)) 0).1 = .failed 7 ∧
      (now.forEach (visit (.fail 7)) 0).2.2.eof = false ∧
      (now.forEach (visit (.fail 7)) 0).2.2.scan.rest = [] ∧
      (now.forEach (visit (.abort 8)) 0).2.2 = now ∧
      (now.forEach (visit .accept) 0).1 = .done 2 ∧
      (now.forEach (visit .accept) 0).2.2.isMapped = false := by
  intro content files r now visit
  have hfile : files.Holds [120] content := FileSystem.holds_of_regular rfl
  have hopen : Reader.openFile files [120] = .ok r := rfl
  have hrest : now.scan.rest = [[98]] ++ [99] :: [] := by
    rw [Scanner.rest_eq]
    decide
  have haccepts : ∀ reply, (visit reply).Accepts 0 [[98]] 1 := fun reply =>
    Visitor.Accepts.cons rfl (Visitor.Accepts.nil 1)
  have hreply : ∀ reply, visit reply 1 [99] = (reply, 2) := fun reply => rfl
  have hall : (visit .accept).Accepts 0 now.scan.rest 2 := by
    rw [hrest]
    exact Visitor.Accepts.cons rfl (Visitor.Accepts.cons rfl (Visitor.Accepts.nil 2))
  have hends := fun reply => visit_leaves_what_it_did_not_take hfile hopen
    [(.pull .getline : Call Nat)] (visit reply) 0
  obtain ⟨hfail, -⟩ := hends (.fail 7)
  obtain ⟨hfailed, -, -, hgoing, hnothing⟩ :=
    hfail _ _ _ _ _ _ hrest (haccepts (.fail 7)) (hreply (.fail 7))
  obtain ⟨-, habort, -⟩ := hends (.abort 8)
  obtain ⟨-, -, hsame, -⟩ :=
    habort _ _ _ _ _ _ hrest (haccepts (.abort 8)) (hreply (.abort 8))
  obtain ⟨-, -, haccept, -⟩ := hends .accept
  obtain ⟨hdone, -, -, hunmapped⟩ := haccept 2 hall
  have hcount : (r.run [(.pull .getline : Call Nat)]).scan.rest.length = 2 :=
    congrArg List.length hrest
  rw [hcount] at hdone
  exact ⟨hfile, hopen, hrest, haccepts, hreply, hfailed, hgoing, hnothing, hsame, hdone,
    hunmapped⟩

end Linewise
