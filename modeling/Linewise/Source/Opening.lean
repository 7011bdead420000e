import Linewise.Reader

/-!
# Opening a file on a host

A file is first opened quietly, that is, without a note on it that it has been read.  Only the
owner of a file may do so; the first refusal for this reason ends all quiet attempts, of this
file and of later ones.  So a host has two answers to the request for a path, and which of them
counts depends on what has been opened before.

The answer that counts is treated like that of any file system.

* `Host` — an operating system with its two answers;
* `Host.openForMapping` — a quiet attempt, unless they have ended, and a plain one;
* `Host.answers` — the answers to requests for many paths, made one after the other;
* `Source.openOn`, `Reader.openOn` — a path of a host, opened;
* `FileSystem.host` — a host that answers as a file system does, and refuses to open quietly
  what is somebody else's.
-/

namespace Linewise

/-- An operating system, as far as it opens files. -/
structure Host where
  /-- Open a path, quietly or not. -/
  request : (quiet : Bool) → FileSystem

namespace Host

variable (host : Host)

/-- The number of the error that refuses to open a file quietly. -/
def notPermitted : Int := 1

/-- Open a path, quietly if quiet attempts have not ended.  Besides the answer, tell whether
they go on. -/
def openForMapping (quiet : Bool) (path : Path) : Except IoError Opened × Bool :=
  if quiet then
    match host.request true path with
    | .error e =>
        if e.code? = some notPermitted then (host.request false path, false)
        else (.error e, true)
    | .ok file => (.ok file, true)
  else (host.request false path, false)

/-- The answer that counts. -/
def answer (quiet : Bool) (path : Path) : Except IoError Opened :=
  (host.openForMapping quiet path).1

/-- The answers that count for many paths, if they are opened in this order. -/
def answers (quiet : Bool) : List Path → List (Except IoError Opened)
  | [] => []
  | path :: paths =>
      host.answer quiet path :: answers (host.openForMapping quiet path).2 paths

end Host

/-- Open and map a path.  Besides the source, tell whether quiet attempts go on. -/
def Source.openOn [Platform] (host : Host) (quiet : Bool) (path : Path) :
    Except OpenError Source × Bool :=
  (Source.ofAnswer path (host.openForMapping quiet path).1, (host.openForMapping quiet path).2)

/-- Open a path for reading.  Besides the reader, tell whether quiet attempts go on. -/
def Reader.openOn [Platform] (host : Host) (quiet : Bool) (path : Path) :
    Except OpenError Reader × Bool :=
  ((Source.openOn host quiet path).1.map Reader.ofSource, (Source.openOn host quiet path).2)

/-- A host that answers as `files` does, and refuses to open quietly what is not `owned`.  The
number of this refusal is the operating system's. -/
def FileSystem.host (files : FileSystem) (owned : Path → Bool) : Host where
  request quiet path := if quiet && !owned path then .error (.os 1) else files path

end Linewise
