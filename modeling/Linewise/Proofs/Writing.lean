import Linewise.Output

/-!
# Writing to a device

A write may be held back, may drive out what was held before, and may go straight through,
and a stream behind a buffer decides so twice.  Yet there is only one way for it to fail:
the device is asked to take bytes and refuses.  `Served` says so of every operation, and that
the device is the same afterwards.

* `Stream.write_served`, `Output.write_served`, `Output.flush_served` — an operation fails
  only as its device does;
* `Output.Takes` — what it means to hand bytes to an output: they come behind all that was
  handed over before, unless the device refuses;
* `Output.writeAll_takes`, `Output.flush_takes` — **pieces are taken in order**, and a flush
  adds nothing.
-/

namespace Linewise

/-- What an operation before `device` comes to: something before the same device, or the
refusal of the device. -/
def Served {α : Type} (deviceOf : α → Device) (device : Device) : Except IoError α → Prop
  | .ok next => deviceOf next = device
  | .error e => device.accept = .error e

namespace Served

variable {α : Type} {deviceOf : α → Device} {device : Device} {result : Except IoError α}

/-- What fails, fails as the device does. -/
theorem of_error {e : IoError} (h : Served deviceOf device result) (he : result = .error e) :
    device.accept = .error e := by
  rwa [he] at h

/-- What goes well leaves the device the same. -/
theorem of_ok {next : α} (h : Served deviceOf device result) (hok : result = .ok next) :
    deviceOf next = device := by
  rwa [hok] at h

end Served

namespace Stream

/-- Sending is up to the device. -/
theorem send_served (s : Stream) (bytes : Bytes) :
    Served Stream.device s.device (s.send bytes) := by
  unfold send
  split
  · next e hrefused => exact hrefused
  · exact rfl

/-- So is sending the line begun last. -/
theorem flush_served (s : Stream) : Served Stream.device s.device s.flush := by
  unfold flush
  split
  · exact rfl
  · exact send_served { s with line := Backlog.empty } s.line.bytes

/-- So is making room, which sends that line or nothing. -/
theorem makeRoom_served (s : Stream) (size : Nat) :
    Served Stream.device s.device (s.makeRoom size) := by
  unfold makeRoom
  split
  · exact s.flush_served
  · exact rfl

/-- So is going on with a line. -/
theorem hold_served (s : Stream) (bytes : Bytes) :
    Served Stream.device s.device (s.hold bytes) := by
  have hroom := s.makeRoom_served bytes.length
  unfold hold
  split
  · next e he => exact hroom.of_error he
  · next roomy hok =>
      have hdevice := hroom.of_ok hok
      split
      · exact hdevice
      · rw [← hdevice]
        exact roomy.send_served bytes

/-- **A stream** fails only as its device does. -/
theorem write_served (s : Stream) (bytes : Bytes) :
    Served Stream.device s.device (s.write bytes) := by
  unfold write
  split
  · exact s.hold_served bytes
  · next width _ =>
      split
      · next e he => exact s.flush_served.of_error he
      · next flushed hflush =>
          have hsend := flushed.send_served (bytes.take (width + 1))
          rw [s.flush_served.of_ok hflush] at hsend
          split
          · next e he => exact hsend.of_error he
          · next later hok =>
              rw [← hsend.of_ok hok]
              exact later.hold_served (bytes.drop (width + 1))

end Stream

namespace Output

/-- The device behind the stream. -/
def device (o : Output) : Device := o.stream.device

/-- What goes past the held bytes is up to the device, and to the stream before it. -/
theorem pass_served (o : Output) (bytes : Bytes) :
    Served Output.device o.device (o.pass bytes) := by
  have hwrite := o.stream.write_served bytes
  unfold pass
  split
  · next e he => exact hwrite.of_error he
  · next stream hok => exact hwrite.of_ok hok

/-- So is driving out what is held. -/
theorem drain_served (o : Output) : Served Output.device o.device o.drain := by
  unfold drain
  split
  · exact rfl
  · exact pass_served { o with held := Backlog.empty } o.held.bytes

/-- So is making room, which drives out what is held or nothing. -/
theorem makeRoom_served (o : Output) (size : Nat) :
    Served Output.device o.device (o.makeRoom size) := by
  unfold makeRoom
  split
  · exact o.drain_served
  · exact rfl

/-- **A buffer before a stream** fails only as the device does. -/
theorem write_served (o : Output) (piece : Bytes) :
    Served Output.device o.device (o.write piece) := by
  have hroom := o.makeRoom_served piece.length
  unfold write
  split
  · next e he => exact hroom.of_error he
  · next roomy hok =>
      have hdevice := hroom.of_ok hok
      split
      · exact hdevice
      · rw [← hdevice]
        exact roomy.pass_served piece

/-- So is a flush of both buffers. -/
theorem flush_served (o : Output) : Served Output.device o.device o.flush := by
  unfold flush
  split
  · next e he => exact o.drain_served.of_error he
  · next drained hdrain =>
      have hflush := drained.stream.flush_served
      rw [← o.drain_served.of_ok hdrain]
      split
      · next e he => exact hflush.of_error he
      · next stream hok => exact hflush.of_ok hok

end Output

namespace Output

/-- What handing `bytes` to an output comes to: they are behind all bytes handed over so far,
or the device has refused. -/
inductive Takes (o : Output) (bytes : Bytes) : Except IoError Output → Prop
  | taken {next : Output} (device_eq : next.device = o.device)
      (contents_eq : next.contents = o.contents ++ bytes) : Takes o bytes (.ok next)
  | refused {e : IoError} (answer : o.device.accept = .error e) : Takes o bytes (.error e)

namespace Takes

variable {o mid : Output} {front back bytes : Bytes} {result : Except IoError Output}

/-- Some bytes, and then others. -/
theorem append (h : o.Takes front (.ok mid)) (hback : mid.Takes back result) :
    o.Takes (front ++ back) result := by
  cases h with
  | taken device_eq contents_eq =>
      cases hback with
      | taken later_device later_contents =>
          refine taken (later_device.trans device_eq) ?_
          rw [later_contents, contents_eq, List.append_assoc]
      | refused answer => exact refused (device_eq ▸ answer)

/-- The two ways in which bytes can be handed over. -/
theorem ok_or_refused (h : o.Takes bytes result) :
    (∃ next, result = .ok next ∧ o.Takes bytes (.ok next)) ∨
      ∃ e, result = .error e ∧ o.device.accept = .error e := by
  cases result with
  | ok next => exact Or.inl ⟨next, rfl, h⟩
  | error e =>
      cases h with
      | refused answer => exact Or.inr ⟨e, rfl, answer⟩

end Takes

/-- A write takes its piece. -/
theorem write_takes (o : Output) (piece : Bytes) : o.Takes piece (o.write piece) := by
  have hserved := o.write_served piece
  cases hwrite : o.write piece with
  | error e => exact Takes.refused (hserved.of_error hwrite)
  | ok next => exact Takes.taken (hserved.of_ok hwrite) (contents_write hwrite)

/-- Pieces in two groups are written group by group. -/
theorem writeAll_append (o : Output) (front back : List Bytes) :
    o.writeAll (front ++ back) = o.writeAll front >>= fun mid => mid.writeAll back :=
  List.foldlM_append

/-- **Pieces are taken in order**, up to the first that the device refuses. -/
theorem writeAll_takes (o : Output) (pieces : List Bytes) :
    o.Takes pieces.flatten (o.writeAll pieces) := by
  induction pieces generalizing o with
  | nil => exact Takes.taken rfl (by simp)
  | cons piece pieces ih =>
      rw [writeAll, List.foldlM_cons, List.flatten_cons]
      obtain ⟨mid, hwrite, hfirst⟩ | ⟨e, hwrite, hrefused⟩ :=
        (o.write_takes piece).ok_or_refused
      · rw [hwrite]
        exact hfirst.append (ih mid)
      · rw [hwrite]
        exact Takes.refused hrefused

/-- A flush takes nothing more. -/
theorem flush_takes (o : Output) : o.Takes [] o.flush := by
  have hserved := o.flush_served
  cases hflush : o.flush with
  | error e => exact Takes.refused (hserved.of_error hflush)
  | ok next =>
      refine Takes.taken (hserved.of_ok hflush) ?_
      rw [contents_flush hflush, List.append_nil]

end Output

end Linewise
