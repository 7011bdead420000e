import Linewise.Utf8

/-!
# Faults

Two kinds of fault meet when a file is brought into memory.  An `IoError` is an
answer of the operating system or of a library below this one.  An `OpenError`
says of a path that its file could not be opened or mapped, and carries the
`IoError` behind it.  Since an `OpenError` can itself be passed on as an
`IoError`, the two are defined together, and a fault is a chain of any length.

Errors of the operating system have numbers.  What kind of fault a number stands
for, and how it is worded, is a matter of the platform.

* `FaultKind` — what sort of fault it is, whoever reports it;
* `Platform` — what is said of the numbered errors;
* `IoError.wrapped` — a fault passed on, under the kind that it has by then;
* `IoError.display` — the full wording, where an error of the operating system
  ends with its number in parentheses;
* `IoError.message` — the wording for people, without that number;
* `OpenError.message` — the path, and the message of what lies behind;
* `IoError.kind`, `OpenError.kind` — the kind, noted with the fault or found with
  its cause.
-/

namespace Linewise

/-- The name of a file: any bytes, with `/` between its parts. -/
abbrev Path := Bytes

/-- What sort of fault it is. -/
inductive FaultKind where
  | notFound
  | permissionDenied
  | connectionRefused
  | connectionReset
  | hostUnreachable
  | networkUnreachable
  | connectionAborted
  | notConnected
  | addrInUse
  | addrNotAvailable
  | networkDown
  | brokenPipe
  | alreadyExists
  | wouldBlock
  | notADirectory
  | isADirectory
  | directoryNotEmpty
  | readOnlyFilesystem
  | filesystemLoop
  | staleNetworkFileHandle
  | invalidInput
  | invalidData
  | timedOut
  | writeZero
  | storageFull
  | notSeekable
  | quotaExceeded
  | fileTooLarge
  | resourceBusy
  | executableFileBusy
  | deadlock
  | crossesDevices
  | tooManyLinks
  | invalidFilename
  | argumentListTooLong
  | interrupted
  | unsupported
  | unexpectedEof
  | outOfMemory
  | inProgress
  | inputOutputError
  | tooManyOpenFiles
  | other
  | uncategorized
  deriving Repr, DecidableEq

/-- The wording of a fault of which only the kind is known. -/
def FaultKind.description : FaultKind → String
  | notFound => "entity not found"
  | permissionDenied => "permission denied"
  | connectionRefused => "connection refused"
  | connectionReset => "connection reset"
  | hostUnreachable => "host unreachable"
  | networkUnreachable => "network unreachable"
  | connectionAborted => "connection aborted"
  | notConnected => "not connected"
  | addrInUse => "address in use"
  | addrNotAvailable => "address not available"
  | networkDown => "network down"
  | brokenPipe => "broken pipe"
  | alreadyExists => "entity already exists"
  | wouldBlock => "operation would block"
  | notADirectory => "not a directory"
  | isADirectory => "is a directory"
  | directoryNotEmpty => "directory not empty"
  | readOnlyFilesystem => "read-only filesystem or storage medium"
  | filesystemLoop => "filesystem loop or indirection limit (e.g. symlink loop)"
  | staleNetworkFileHandle => "stale network file handle"
  | invalidInput => "invalid input parameter"
  | invalidData => "invalid data"
  | timedOut => "timed out"
  | writeZero => "write zero"
  | storageFull => "no storage space"
  | notSeekable => "seek on unseekable file"
  | quotaExceeded => "quota exceeded"
  | fileTooLarge => "file too large"
  | resourceBusy => "resource busy"
  | executableFileBusy => "executable file busy"
  | deadlock => "deadlock"
  | crossesDevices => "cross-device link or rename"
  | tooManyLinks => "too many links"
  | invalidFilename => "invalid filename"
  | argumentListTooLong => "argument list too long"
  | interrupted => "operation interrupted"
  | unsupported => "unsupported"
  | unexpectedEof => "unexpected end of file"
  | outOfMemory => "out of memory"
  | inProgress => "in progress"
  | inputOutputError => "input/output error"
  | tooManyOpenFiles => "too many open files"
  | other => "other error"
  | uncategorized => "uncategorized error"

/-- What a platform says of the numbered errors of its operating system. -/
class Platform where
  /-- The kind of fault that a number stands for. -/
  kind : Int → FaultKind
  /-- The wording of an error, without its number. -/
  text : Int → String

/-! ## Chains of faults -/

mutual

/-- A fault reported from below. -/
inductive IoError where
  /-- An error of the operating system. -/
  | os (code : Int)
  /-- An error of which only the kind is known. -/
  | bare (kind : FaultKind)
  /-- An error with a wording of its own. -/
  | custom (kind : FaultKind) (text : String)
  /-- An error that holds another fault, with a kind noted beside it. -/
  | holding (kind : FaultKind) (content : OpenError)

/-- Why a file could not be brought into memory. -/
inductive OpenError where
  /-- There is no such file. -/
  | missing (path : Path) (cause : IoError)
  /-- The file may not be opened. -/
  | forbidden (path : Path) (cause : IoError)
  /-- The file could not be opened for any other reason. -/
  | unopened (path : Path) (cause : IoError)
  /-- What was opened holds no bytes that could be mapped. -/
  | notRegular (path : Path)
  /-- The file was opened, but not mapped. -/
  | unmapped (path : Path) (cause : IoError)

end

deriving instance Repr, DecidableEq for IoError, OpenError

/-- Every write to a full device fails with this error. -/
def IoError.noSpace : IoError := .os 28

/-! ## Wording -/

/-- Cut `tail` off the end of `text` as often as it stands there. -/
def trimTail (tail text : String) : String :=
  String.ofList (loop tail.toList.reverse text.toList.reverse).reverse
where
  /-- Drop `head` from the front as often as it stands there. -/
  loop (head : List Char) (text : List Char) : List Char :=
    if h : head ≠ [] ∧ head.isPrefixOf text then
      have : text.length - head.length < text.length := by
        have hpos : 0 < head.length := List.length_pos_iff.mpr h.1
        have hle := (List.isPrefixOf_iff_prefix.mp h.2).length_le
        omega
      loop head (text.drop head.length)
    else text
  termination_by text.length

/-- The number of an error of the operating system.  No other fault has one, even if it holds
a fault that goes back to such an error. -/
def IoError.code? : IoError → Option Int
  | os code => some code
  | _ => none

/-- What is looked for at the end of a wording, to be cut off. -/
def codePattern (code : Int) : String := " (os error " ++ toString code ++ ")"

/-- The wording for people of an error whose full wording is `text`: an error of
the operating system loses its number. -/
def IoError.withoutCode (e : IoError) (text : String) : String :=
  match e.code? with
  | some code => trimTail (codePattern code) text
  | none => text

section

variable [Platform]

mutual

/-- The full wording.  An error of the operating system ends with its number. -/
def IoError.display : IoError → String
  | .os code => Platform.text code ++ " (os error " ++ toString code ++ ")"
  | .bare kind => kind.description
  | .custom _ text => text
  | .holding _ content => content.message

/-- The path, and what happened to it. -/
def OpenError.message : OpenError → String
  | .missing path cause => Utf8.lossy path ++ ": " ++ cause.withoutCode cause.display
  | .forbidden path cause => Utf8.lossy path ++ ": " ++ cause.withoutCode cause.display
  | .unopened path cause => Utf8.lossy path ++ ": " ++ cause.withoutCode cause.display
  | .notRegular path => Utf8.lossy path ++ ": not a regular file"
  | .unmapped path cause =>
      Utf8.lossy path ++ ": cannot map file: " ++ cause.withoutCode cause.display

end

/-- The wording for people. -/
def IoError.message (e : IoError) : String := e.withoutCode e.display

/-- The kind: the number's, or the one noted with the error. -/
def IoError.kind : IoError → FaultKind
  | .os code => Platform.kind code
  | .bare kind => kind
  | .custom kind _ => kind
  | .holding kind _ => kind

/-- The kind: fixed where the variant tells it, else that of the cause. -/
def OpenError.kind : OpenError → FaultKind
  | .missing _ _ => .notFound
  | .forbidden _ _ => .permissionDenied
  | .unopened _ cause => cause.kind
  | .notRegular _ => .invalidInput
  | .unmapped _ cause => cause.kind

/-- A fault passed on: the error that holds it, with its kind noted beside it. -/
def IoError.wrapped (m : OpenError) : IoError := .holding m.kind m

end

namespace OpenError

/-- The path that the fault is about. -/
def path : OpenError → Path
  | missing path _ => path
  | forbidden path _ => path
  | unopened path _ => path
  | notRegular path => path
  | unmapped path _ => path

/-- The error behind the fault. -/
def cause? : OpenError → Option IoError
  | missing _ cause => some cause
  | forbidden _ cause => some cause
  | unopened _ cause => some cause
  | notRegular _ => none
  | unmapped _ cause => some cause

section

variable [Platform]

/-- The error for a path that could not be opened: the kind of the cause decides
on the variant. -/
def ofCause (path : Path) (cause : IoError) : OpenError :=
  match cause.kind with
  | .notFound => missing path cause
  | .permissionDenied => forbidden path cause
  | _ => unopened path cause

/-- The variant that is decided on keeps the kind. -/
theorem kind_ofCause (path : Path) (cause : IoError) :
    (ofCause path cause).kind = cause.kind := by
  unfold ofCause
  split <;> simp_all [kind]

/-- The variant that is decided on does not show in the wording. -/
theorem message_ofCause (path : Path) (cause : IoError) :
    (ofCause path cause).message = Utf8.lossy path ++ ": " ++ cause.message := by
  unfold ofCause
  split <;> simp [message, IoError.message]

end

end OpenError

end Linewise
