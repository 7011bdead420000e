import Linewise.Fault
import Linewise.Line

/-!
# Streams

A stream carries bytes to a device, line by line.  What ends with a newline goes
to the device at once.  The line begun last is held back until it is ended, until
it has grown too long, or until the stream is flushed.  So a device that refuses
every write is not noticed as long as it is only handed the beginning of a line.

* `Backlog` — bytes held back, in the pieces in which they came;
* `Stream.write` — hand bytes over, of which the ended lines are sent;
* `Stream.flush` — send the line begun last as it stands;
* `Stream.contents` — all bytes handed over so far, which no write changes but by
  adding its own: `contents_write`.
-/

namespace Linewise

/-! ## Devices -/

/-- Where output ends up. -/
inductive Device where
  | writable
  /-- Every write fails, for want of space. -/
  | full
  deriving Repr, DecidableEq

/-- What a device answers to a write. -/
def Device.accept : Device → Except IoError Unit
  | writable => .ok ()
  | full => .error .noSpace

/-! ## Bytes held back -/

/-- Bytes held back.  Their number is at hand without counting them. -/
structure Backlog where
  /-- The pieces, the latest first. -/
  pieces : List Bytes
  size : Nat
  size_eq : size = pieces.flatten.length
  deriving Repr, DecidableEq

namespace Backlog

/-- Nothing held back. -/
def empty : Backlog := ⟨[], 0, rfl⟩

/-- Hold one more piece back. -/
def add (b : Backlog) (piece : Bytes) : Backlog where
  pieces := piece :: b.pieces
  size := piece.length + b.size
  size_eq := by rw [b.size_eq, List.flatten_cons, List.length_append]

/-- The bytes held back, the earliest first. -/
def bytes (b : Backlog) : Bytes := b.pieces.reverse.flatten

@[simp] theorem bytes_empty : empty.bytes = [] := rfl

@[simp] theorem bytes_add (b : Backlog) (piece : Bytes) :
    (b.add piece).bytes = b.bytes ++ piece := by
  simp [add, bytes]

/-- The number at hand is the number of the bytes. -/
theorem length_bytes (b : Backlog) : b.bytes.length = b.size := by
  rw [b.size_eq, bytes, List.length_flatten, List.length_flatten, List.map_reverse,
    List.sum_reverse]

theorem bytes_of_size_eq_zero {b : Backlog} (h : b.size = 0) : b.bytes = [] :=
  List.eq_nil_of_length_eq_zero (b.length_bytes.trans h)

end Backlog

/-! ## Streams -/

/-- A device behind a buffer for one line. -/
structure Stream where
  device : Device
  /-- What has reached the device, the latest first. -/
  sent : List Bytes
  /-- The line begun last. -/
  line : Backlog
  deriving Repr, DecidableEq

namespace Stream

/-- How many bytes of a line are held back. -/
def lineCapacity : Nat := 1024

/-- A stream to the device to which nothing has been handed over. -/
def toDevice (device : Device) : Stream := ⟨device, [], Backlog.empty⟩

/-- All bytes handed over so far, whether they are sent or held. -/
def contents (s : Stream) : Bytes := s.sent.reverse.flatten ++ s.line.bytes

/-- Send bytes to the device, past the line that is held back. -/
def send (s : Stream) (bytes : Bytes) : Except IoError Stream :=
  match s.device.accept with
  | .error e => .error e
  | .ok () => .ok { s with sent := bytes :: s.sent }

/-- Send the line begun last as it stands.  Without one the device is left
alone. -/
def flush (s : Stream) : Except IoError Stream :=
  if s.line.size = 0 then .ok s
  else { s with line := Backlog.empty }.send s.line.bytes

/-- Send the line begun last, if it cannot take `size` more bytes. -/
def makeRoom (s : Stream) (size : Nat) : Except IoError Stream :=
  if lineCapacity < s.line.size + size then s.flush else .ok s

/-- Go on with a line.  Bytes that would fill the buffer are sent. -/
def hold (s : Stream) (bytes : Bytes) : Except IoError Stream :=
  match s.makeRoom bytes.length with
  | .error e => .error e
  | .ok s =>
      if bytes.length < lineCapacity then .ok { s with line := s.line.add bytes }
      else s.send bytes

/-- Hand bytes over.  Lines that they end are sent, behind what was held back, and
a line that they begin is held. -/
def write (s : Stream) (bytes : Bytes) : Except IoError Stream :=
  match lastBreak bytes.length bytes with
  | 0 => s.hold bytes
  | width + 1 =>
      match s.flush with
      | .error e => .error e
      | .ok s =>
          match s.send (bytes.take (width + 1)) with
          | .error e => .error e
          | .ok s => s.hold (bytes.drop (width + 1))

/-! ## What is handed over stays -/

/-- What is sent stands at the end, if no line is held back. -/
theorem contents_send {s next : Stream} {bytes : Bytes} (hline : s.line.bytes = [])
    (h : s.send bytes = .ok next) :
    next.contents = s.contents ++ bytes ∧ next.line = s.line := by
  unfold send at h
  split at h
  · cases h
  · cases h
    simp [contents, hline]

/-- A flush keeps what was handed over, and leaves no line held back. -/
theorem contents_flush {s next : Stream} (h : s.flush = .ok next) :
    next.contents = s.contents ∧ next.line.bytes = [] := by
  unfold flush at h
  split at h
  · next hsize =>
      cases h
      exact ⟨rfl, Backlog.bytes_of_size_eq_zero hsize⟩
  · obtain ⟨hcontents, hline⟩ := contents_send (by simp) h
    rw [hcontents, hline]
    simp [contents]

/-- A line that goes on adds its bytes at the end. -/
theorem contents_hold {s next : Stream} {bytes : Bytes} (h : s.hold bytes = .ok next) :
    next.contents = s.contents ++ bytes := by
  unfold hold at h
  split at h
  · cases h
  · next roomy hroom =>
      -- Bytes that fill the buffer never fit beside others, so room has been made for them.
      have hkeep : roomy.contents = s.contents ∧
          (lineCapacity ≤ bytes.length → roomy.line.bytes = []) := by
        unfold makeRoom at hroom
        split at hroom
        · obtain ⟨hcontents, hline⟩ := contents_flush hroom
          exact ⟨hcontents, fun _ => hline⟩
        · next hfits =>
            cases hroom
            refine ⟨rfl, fun hlong => Backlog.bytes_of_size_eq_zero ?_⟩
            omega
      rw [← hkeep.1]
      split at h
      · cases h
        simp [contents]
      · next hlong =>
          exact (contents_send (hkeep.2 (Nat.le_of_not_lt hlong)) h).1

/-- **A write adds its bytes at the end**, whether they are sent or held. -/
theorem contents_write {s next : Stream} {bytes : Bytes} (h : s.write bytes = .ok next) :
    next.contents = s.contents ++ bytes := by
  unfold write at h
  split at h
  · exact contents_hold h
  · next width _ =>
      split at h
      · cases h
      · next flushed hflush =>
          obtain ⟨hkeep, hline⟩ := contents_flush hflush
          split at h
          · cases h
          · next later hsend =>
              rw [contents_hold h, (contents_send hline hsend).1, hkeep, List.append_assoc,
                List.take_append_drop]

end Stream

end Linewise
