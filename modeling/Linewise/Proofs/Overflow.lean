import Linewise.Proofs.Writing

/-!
# Output that has nowhere to go

A full device takes no bytes, and yet it is not noticed at once: what is handed to an output
is held back, first in its buffer and then in the line buffer of the stream, until something
has to be sent.  This takes more bytes than the buffer holds, or a flush.

* `Output.writeAll_overflow` — on any device pieces are refused only if they do not fit the
  buffer, together with all that was handed over before;
* `Stream.Blocked`, `Output.Blocked` — a full device that nothing has reached, which no
  operation changes that succeeds;
* `Output.Blocked.flush` — **a flush notices a full device**, unless there is nothing to
  flush.
-/

namespace Linewise

/-- Only a full device refuses, and it does so for want of space. -/
theorem Device.full_of_accept {device : Device} {e : IoError} (h : device.accept = .error e) :
    device = .full ∧ e = .noSpace := by
  cases device with
  | writable => cases h
  | full =>
      cases h
      exact ⟨rfl, rfl⟩

/-- What every step of a loop keeps, the loop keeps, unless it is broken off. -/
theorem foldlM_invariant {α β ε : Type} {f : β → α → Except ε β} {motive : β → Prop}
    (step : ∀ s x t, motive s → f s x = .ok t → motive t) {xs : List α} {s t : β}
    (h : motive s) (hfold : xs.foldlM f s = .ok t) : motive t := by
  induction xs generalizing s with
  | nil =>
      cases hfold
      exact h
  | cons x xs ih =>
      rw [List.foldlM_cons] at hfold
      cases hfirst : f s x with
      | error e =>
          rw [hfirst] at hfold
          cases hfold
      | ok mid =>
          rw [hfirst] at hfold
          exact ih (step s x mid h hfirst) hfold

/-- Nothing is held back if and only if the number at hand is zero. -/
theorem Backlog.bytes_eq_nil_iff {b : Backlog} : b.bytes = [] ↔ b.size = 0 := by
  rw [← b.length_bytes, List.length_eq_zero_iff]

/-- A loop is broken off at one of its steps, behind those that succeeded. -/
theorem exists_of_foldlM_error {α β ε : Type} {f : β → α → Except ε β} {xs : List α} {s : β}
    {e : ε} (hfold : xs.foldlM f s = .error e) :
    ∃ front x back t, xs = front ++ x :: back ∧ front.foldlM f s = .ok t ∧ f t x = .error e := by
  induction xs generalizing s with
  | nil => cases hfold
  | cons x xs ih =>
      rw [List.foldlM_cons] at hfold
      cases hfirst : f s x with
      | error e' =>
          rw [hfirst] at hfold
          cases hfold
          exact ⟨[], x, xs, s, rfl, rfl, hfirst⟩
      | ok mid =>
          rw [hfirst] at hfold
          obtain ⟨front, y, back, t, rfl, hfront, hbroken⟩ := ih hfold
          refine ⟨x :: front, y, back, t, rfl, ?_, hbroken⟩
          rw [List.foldlM_cons, hfirst]
          exact hfront

/-! ## More than the buffer holds -/

namespace Output

/-- What is held was handed over. -/
theorem size_held_le (o : Output) : o.held.size ≤ o.contents.length := by
  rw [← o.held.length_bytes, contents, List.length_append]
  omega

/-- Pieces are refused only for want of space. -/
theorem eq_noSpace_of_writeAll {o : Output} {pieces : List Bytes} {e : IoError}
    (hwrite : o.writeAll pieces = .error e) : e = .noSpace := by
  have hrefused := o.writeAll_takes pieces
  rw [hwrite] at hrefused
  cases hrefused with
  | refused answer => exact (Device.full_of_accept answer).2

/-- A short piece is refused only if it does not fit the buffer, together with what was handed
over before. -/
theorem write_overflow {o : Output} {piece : Bytes} {e : IoError}
    (hwrite : o.write piece = .error e) (hshort : piece.length < capacity) :
    capacity < o.contents.length + piece.length := by
  have hheld := o.size_held_le
  unfold write at hwrite
  split at hwrite
  · next e' hroom =>
      unfold makeRoom at hroom
      split at hroom
      · omega
      · cases hroom
  · rw [if_pos hshort] at hwrite
    cases hwrite

/-- **Pieces are refused only if they do not fit the buffer**, together with all that was
handed over before.  A piece as large as the buffer is not held back, so where nothing was
handed over before, the first piece must not be all there is. -/
theorem writeAll_overflow {o : Output} {pieces : List Bytes} {e : IoError}
    (hwrite : o.writeAll pieces = .error e)
    (hmore : o.contents ≠ [] ∨
      ∀ piece ∈ pieces.head?, piece ≠ [] ∧ piece.length < pieces.flatten.length) :
    capacity < (o.contents ++ pieces.flatten).length := by
  induction pieces generalizing o with
  | nil => cases hwrite
  | cons piece pieces ih =>
      have hfirst : 0 < o.contents.length ∨
          0 < piece.length ∧ piece.length < piece.length + pieces.flatten.length := by
        simpa [List.length_pos_iff] using hmore
      rw [writeAll, List.foldlM_cons] at hwrite
      rw [List.flatten_cons, List.length_append, List.length_append]
      by_cases hshort : piece.length < capacity
      · cases hpiece : o.write piece with
        | error e' =>
            have hover := write_overflow hpiece hshort
            omega
        | ok mid =>
            rw [hpiece] at hwrite
            have hlength : mid.contents.length = o.contents.length + piece.length := by
              rw [contents_write hpiece, List.length_append]
            have hmid : mid.contents ≠ [] := by
              rw [← List.length_pos_iff]
              omega
            have hover := ih hwrite (Or.inl hmid)
            rw [List.length_append] at hover
            omega
      · omega

end Output

/-! ## A full device -/

namespace Stream

/-- A stream to a full device that nothing has reached. -/
structure Blocked (s : Stream) : Prop where
  device_eq : s.device = .full
  sent_eq : s.sent = []

namespace Blocked

variable {s next : Stream} {bytes : Bytes}

/-- All that was handed over is in the line begun last. -/
theorem contents_eq (h : s.Blocked) : s.contents = s.line.bytes := by
  rw [contents, h.sent_eq]
  rfl

/-- Nothing is sent to a full device. -/
theorem send (h : s.Blocked) (bytes : Bytes) : s.send bytes = .error .noSpace := by
  rw [Stream.send, h.device_eq]
  rfl

/-- A flush notices the device, unless there is nothing to flush. -/
theorem flush (h : s.Blocked) :
    s.flush = if s.contents = [] then .ok s else .error .noSpace := by
  have hsend : ({ s with line := Backlog.empty } : Stream).send s.line.bytes =
      .error .noSpace := send (s := { s with line := Backlog.empty }) ⟨h.device_eq, h.sent_eq⟩ _
  simp only [Stream.flush, h.contents_eq, Backlog.bytes_eq_nil_iff, hsend]

/-- A flush that succeeds had nothing to send. -/
theorem eq_of_flush (h : s.Blocked) (hflush : s.flush = .ok next) :
    next = s ∧ s.contents = [] := by
  rw [h.flush] at hflush
  split at hflush
  · next hnone =>
      cases hflush
      exact ⟨rfl, hnone⟩
  · cases hflush

/-- A line that goes on and succeeds has only held its bytes back. -/
theorem hold (h : s.Blocked) (hhold : s.hold bytes = .ok next) : next.Blocked := by
  unfold Stream.hold at hhold
  split at hhold
  · cases hhold
  · next roomy hroom =>
      have hsame : roomy = s := by
        unfold makeRoom at hroom
        split at hroom
        · exact (h.eq_of_flush hroom).1
        · cases hroom
          rfl
      subst hsame
      split at hhold
      · cases hhold
        exact ⟨h.device_eq, h.sent_eq⟩
      · rw [h.send] at hhold
        cases hhold

/-- **A write that succeeds** has only held its bytes back. -/
theorem write (h : s.Blocked) (hwrite : s.write bytes = .ok next) : next.Blocked := by
  unfold Stream.write at hwrite
  split at hwrite
  · exact h.hold hwrite
  · split at hwrite
    · cases hwrite
    · next flushed hflush =>
        rw [(h.eq_of_flush hflush).1, h.send] at hwrite
        cases hwrite

end Blocked

end Stream

namespace Output

/-- An output to a full device that nothing has reached. -/
def Blocked (o : Output) : Prop := o.stream.Blocked

theorem blocked_toDevice : (toDevice .full).Blocked := ⟨rfl, rfl⟩

namespace Blocked

variable {o next : Output} {bytes piece : Bytes}

/-- Passing bytes on has held them in the line buffer, if it succeeds. -/
theorem pass (h : o.Blocked) (hpass : o.pass bytes = .ok next) : next.Blocked := by
  unfold Output.pass at hpass
  split at hpass
  · cases hpass
  · next stream hwrite =>
      cases hpass
      exact h.write hwrite

/-- Driving out what is held has moved it into the line buffer, if it succeeds. -/
theorem drain (h : o.Blocked) (hdrain : o.drain = .ok next) : next.Blocked := by
  unfold Output.drain at hdrain
  split at hdrain
  · cases hdrain
    exact h
  · exact pass (o := { o with held := Backlog.empty }) h hdrain

/-- A write that succeeds has moved bytes between the buffers, and no further. -/
theorem write (h : o.Blocked) (hwrite : o.write piece = .ok next) : next.Blocked := by
  unfold Output.write at hwrite
  split at hwrite
  · cases hwrite
  · next roomy hroom =>
      have hroomy : roomy.Blocked := by
        unfold makeRoom at hroom
        split at hroom
        · exact h.drain hroom
        · cases hroom
          exact h
      split at hwrite
      · cases hwrite
        exact hroomy
      · exact hroomy.pass hwrite

/-- **Pieces that are taken** have not reached the device. -/
theorem writeAll {pieces : List Bytes} (h : o.Blocked)
    (hwrite : o.writeAll pieces = .ok next) : next.Blocked :=
  foldlM_invariant (motive := Blocked) (fun _ _ _ hmid hpiece => hmid.write hpiece) h hwrite

/-- **A flush notices a full device**, unless nothing was handed over. -/
theorem flush (h : o.Blocked) :
    o.flush = if o.contents = [] then .ok o else .error .noSpace := by
  split
  · next hnone =>
      obtain ⟨hstream, hheld⟩ := List.append_eq_nil_iff.mp hnone
      have hdrain : o.drain = .ok o := by
        rw [Output.drain, if_pos (Backlog.bytes_eq_nil_iff.mp hheld)]
      rw [Output.flush, hdrain]
      simp only [Stream.Blocked.flush h, hstream, if_true]
  · next hsome =>
      cases hflush : o.flush with
      | error e => rw [(Device.full_of_accept (o.flush_served.of_error hflush)).2]
      | ok last =>
          -- Both buffers would have to be empty for that, but something was handed over.
          exfalso
          unfold Output.flush at hflush
          split at hflush
          · cases hflush
          · next drained hdrain =>
              obtain ⟨hcontents, hheld⟩ := contents_drain hdrain
              split at hflush
              · cases hflush
              · next stream hstream =>
                  have hnone := (Stream.Blocked.eq_of_flush (h.drain hdrain) hstream).2
                  apply hsome
                  rw [← hcontents, contents, hnone, hheld]
                  rfl

end Blocked

end Output

end Linewise
