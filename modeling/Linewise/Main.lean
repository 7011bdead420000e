import Linewise.Fault.Linux
import Linewise.Report

/-!
# The program

The program asks the operating system about each file that the command line
names, has the answer worked out from those answers, and writes it.  If standard
output refuses what is written, the answer for a full device holds instead.
-/

namespace Linewise

/-- The number of an error of the operating system. -/
def systemCode? : IO.Error → Option UInt32
  | .alreadyExists _ code _ => some code
  | .otherError code _ => some code
  | .resourceBusy code _ => some code
  | .resourceVanished code _ => some code
  | .unsupportedOperation code _ => some code
  | .hardwareFault code _ => some code
  | .unsatisfiedConstraints code _ => some code
  | .illegalOperation code _ => some code
  | .protocolError code _ => some code
  | .timeExpired code _ => some code
  | .interrupted _ code _ => some code
  | .noFileOrDirectory _ code _ => some code
  | .invalidArgument _ code _ => some code
  | .permissionDenied _ code _ => some code
  | .resourceExhausted _ code _ => some code
  | .inappropriateType _ code _ => some code
  | .noSuchThing _ code _ => some code
  | .unexpectedEof => none
  | .userError _ => none

/-- The fault that an error of the operating system stands for.  Some calls give
its number, and some the negative of it. -/
def faultOf (e : IO.Error) : IoError :=
  match systemCode? e with
  | some code => .os code.toInt32.toInt.natAbs
  | none => .custom .other (toString e)

/-- Ask the operating system to open a file. -/
def askFor (name : Path) : IO (Except IoError Opened) := do
  let place := (IO.FS.DirEntry.mk (Utf8.lossy name) "").root
  try
    match (← place.metadata).type with
    | .dir => return .ok (.refusing ⟨false, 0⟩ .noSuchDevice)
    | .file => return .ok (.regular (← IO.FS.readBinFile place).toList)
    | .symlink => return .error .tooManyLinks
    | .other => return .ok (.refusing ⟨false, 0⟩ .noSuchDevice)
  catch e => return .error (faultOf e)

/-- The files that a command line is about. -/
def filesOf (arguments : List Bytes) : List Path :=
  match Request.ofArguments arguments with
  | .run settings => settings.files.eraseDups
  | _ => []

/-- Write a report out, and give its exit code. -/
def deliverReport (files : FileSystem) (arguments : List Bytes) : IO UInt32 := do
  let report := respond files .writable arguments
  try
    let stdout ← IO.getStdout
    stdout.write report.stdout.toByteArray
    stdout.flush
    IO.eprint report.stderr
    return report.exitCode.toUInt32
  catch _ =>
    let report := respond files .full arguments
    IO.eprint report.stderr
    return report.exitCode.toUInt32

end Linewise

/-- Answer the command line. -/
def main (arguments : List String) : IO UInt32 := do
  let arguments := arguments.map Linewise.Utf8.encode
  let answers ← (Linewise.filesOf arguments).mapM fun name =>
    return (name, ← Linewise.askFor name)
  let files : Linewise.FileSystem := fun name =>
    (answers.lookup name).getD (.error .noSuchFile)
  Linewise.deliverReport files arguments
