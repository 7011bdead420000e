import Linewise.Stream

/-!
# Output through a buffer

Output goes to a stream in large writes.  A piece is held back as long as it fits
beside the pieces already held; one that does not fit drives those out first, and
one as large as the whole buffer goes straight through.  So a device that refuses
every write is not noticed before the buffer overflows or is flushed, and never if
there is no output.

The stream behind the buffer holds back the line begun last.  What an overflow
drives out is noticed by the device only if a line has been ended in it, or if it
is more than the stream holds.

* `Output.write` — hand over one piece;
* `Output.flush` — drive out what is held, down to the device;
* `Output.contents` — all bytes handed over so far, which no write changes but
  by adding its own: `contents_write`.
-/

namespace Linewise

/-- A stream with a buffer before it. -/
structure Output where
  stream : Stream
  /-- What has not reached the stream. -/
  held : Backlog
  deriving Repr, DecidableEq

namespace Output

/-- How many bytes are held before the stream. -/
def capacity : Nat := 262144

/-- Output to the device to which nothing has been handed over. -/
def toDevice (device : Device) : Output := ⟨Stream.toDevice device, Backlog.empty⟩

/-- All bytes handed over so far, whether they are held, in the stream or sent. -/
def contents (o : Output) : Bytes := o.stream.contents ++ o.held.bytes

/-- Hand bytes to the stream, past those that are held. -/
def pass (o : Output) (bytes : Bytes) : Except IoError Output :=
  match o.stream.write bytes with
  | .error e => .error e
  | .ok stream => .ok { o with stream := stream }

/-- Drive out what is held.  Without anything held the stream is left alone. -/
def drain (o : Output) : Except IoError Output :=
  if o.held.size = 0 then .ok o
  else { o with held := Backlog.empty }.pass o.held.bytes

/-- Drive out what is held, if `size` more bytes do not fit beside it. -/
def makeRoom (o : Output) (size : Nat) : Except IoError Output :=
  if capacity < o.held.size + size then o.drain else .ok o

/-- Hand one piece over.  A piece as large as the buffer goes through it at once. -/
def write (o : Output) (piece : Bytes) : Except IoError Output :=
  match o.makeRoom piece.length with
  | .error e => .error e
  | .ok o =>
      if piece.length < capacity then .ok { o with held := o.held.add piece }
      else o.pass piece

/-- Hand pieces over in their order, up to the first that cannot be written. -/
def writeAll (o : Output) (pieces : List Bytes) : Except IoError Output :=
  pieces.foldlM write o

/-- Drive out what is held, and flush the stream. -/
def flush (o : Output) : Except IoError Output :=
  match o.drain with
  | .error e => .error e
  | .ok o =>
      match o.stream.flush with
      | .error e => .error e
      | .ok stream => .ok { o with stream := stream }

/-- What is passed on stands at the end, if nothing is held. -/
theorem contents_pass {o next : Output} {bytes : Bytes} (hheld : o.held.bytes = [])
    (h : o.pass bytes = .ok next) :
    next.contents = o.contents ++ bytes ∧ next.held = o.held := by
  unfold pass at h
  split at h
  · cases h
  · next stream hwrite =>
      cases h
      simp [contents, hheld, Stream.contents_write hwrite]

/-- Driving out keeps what was handed over, and leaves nothing held. -/
theorem contents_drain {o next : Output} (h : o.drain = .ok next) :
    next.contents = o.contents ∧ next.held.bytes = [] := by
  unfold drain at h
  split at h
  · next hsize =>
      cases h
      exact ⟨rfl, Backlog.bytes_of_size_eq_zero hsize⟩
  · obtain ⟨hcontents, hheld⟩ := contents_pass (by simp) h
    rw [hcontents, hheld]
    simp [contents]

/-- A flush keeps what was handed over. -/
theorem contents_flush {o next : Output} (h : o.flush = .ok next) :
    next.contents = o.contents := by
  unfold flush at h
  split at h
  · cases h
  · next drained hdrain =>
      rw [← (contents_drain hdrain).1]
      split at h
      · cases h
      · next stream hflush =>
          cases h
          simp [contents, (Stream.contents_flush hflush).1]

/-- **A write adds its piece at the end**, through the buffer or around it. -/
theorem contents_write {o next : Output} {piece : Bytes} (h : o.write piece = .ok next) :
    next.contents = o.contents ++ piece := by
  unfold write at h
  split at h
  · cases h
  · next roomy hroom =>
      -- A piece as large as the buffer never fits beside others, so they are driven out.
      have hkeep : roomy.contents = o.contents ∧
          (capacity ≤ piece.length → roomy.held.bytes = []) := by
        unfold makeRoom at hroom
        split at hroom
        · obtain ⟨hcontents, hheld⟩ := contents_drain hroom
          exact ⟨hcontents, fun _ => hheld⟩
        · next hfits =>
            cases hroom
            refine ⟨rfl, fun hlong => Backlog.bytes_of_size_eq_zero ?_⟩
            omega
      rw [← hkeep.1]
      split at h
      · cases h
        simp [contents]
      · next hlong =>
          exact (contents_pass (hkeep.2 (Nat.le_of_not_lt hlong)) h).1

end Output

end Linewise
