import Linewise.Output
import Linewise.Reader
import Linewise.Settings

/-!
# Reports on files

The command line program opens the files it is given one after the other and
shows their lines or the numbers of them.  A file that cannot be opened is
complained about and passed over.  Output that the device refuses ends the run.

The number of lines of all files is kept in sixty-four bits.  A sum that does not fit wraps
around.

* `numberLine` — the visitor that writes each line behind its number;
* `countFile` — the number of lines of a file, scanned or counted in pieces;
* `Session.visitFile` — what one file does;
* `report` — the run as a whole;
* `respond` — the answer to a command line, help and version included.
-/

namespace Linewise

/-- What a run leaves behind. -/
structure Report where
  exitCode : Nat
  stdout : Bytes
  stderr : String
  deriving Repr, DecidableEq

/-- A run between two files. -/
structure Session where
  output : Output
  /-- The number of lines counted so far. -/
  total : UInt64
  /-- What was complained about, the latest first. -/
  complaints : List String
  deriving Repr, DecidableEq

/-- Why a run was broken off: its complaints, the latest first. -/
structure Breakdown where
  complaints : List String
  deriving Repr, DecidableEq

/-- The fewest columns that the number of a line takes. -/
def numberWidth : Nat := 6

/-- The pieces that make up a numbered line. -/
def numberedLine (number : Nat) (line : Bytes) : List Bytes :=
  [padded numberWidth number ++ [tab], line, [newline]]

/-- The pieces of a line with the count of a file. -/
def countLine (count : Nat) (file : Path) : List Bytes :=
  [decimal count, [blank], file, [newline]]

/-- The pieces of a bare sum. -/
def totalLine (total : Nat) : List Bytes :=
  [decimal total, [newline]]

/-- The pieces of the sum below the counts of several files. -/
def grandTotalLine (total : Nat) : List Bytes :=
  [decimal total, Utf8.encode " total", [newline]]

/-- Write each line behind its number.  The state is the output and the number
of the line before. -/
def numberLine : Visitor (Output × Nat) IoError Empty :=
  fun (output, number) line =>
    match output.writeAll (numberedLine (number + 1) line) with
    | .ok output => (.accept, (output, number + 1))
    | .error e => (.fail e, (output, number + 1))

/-- Show the lines of a reader behind their numbers. -/
def printNumbered (r : Reader) (output : Output) : Except IoError Output :=
  match r.forEach numberLine (output, 0) with
  | (.done _, (output, _), _) => .ok output
  | (.failed e, _, _) => .error e
  | (.aborted payload, _, _) => nomatch payload

/-- The number of lines of a file, found by a scan or in pieces. -/
def countFile (opts : Options) (sequential : Bool) (r : Reader) : Nat :=
  if sequential then
    match r.forEach (fun (_ : Unit) _ => ((.accept : Reply Empty Empty), ())) () with
    | (.done count, _, _) => count
    | (.failed e, _, _) => nomatch e
    | (.aborted payload, _, _) => nomatch payload
  else r.countLines opts

namespace Session

/-- Before the first file. -/
def start (device : Device) : Session := ⟨Output.toDevice device, 0, []⟩

/-- Go on behind one more complaint. -/
def complain (s : Session) (text : String) : Session :=
  { s with complaints := text :: s.complaints }

/-- End the run with one more complaint. -/
def breakOff (s : Session) (text : String) : Breakdown :=
  ⟨text :: s.complaints⟩

section

variable [Platform]

/-- Write pieces, or end the run with the wording of the error. -/
def write (s : Session) (pieces : List Bytes) : Except Breakdown Session :=
  match s.output.writeAll pieces with
  | .ok output => .ok { s with output := output }
  | .error e => .error (s.breakOff e.display)

/-- Show what is asked for of a file that has been opened. -/
def showFile (s : Session) (settings : Settings) (opts : Options) (file : Path)
    (r : Reader) : Except Breakdown Session :=
  match settings.mode with
  | .numbered =>
      match printNumbered r s.output with
      | .ok output => .ok { s with output := output }
      | .error e =>
          .error (s.breakOff ("writing lines of " ++ Utf8.lossy file ++ ": " ++ e.display))
  | .counts =>
      let count := countFile opts settings.sequential r
      { s with total := s.total + UInt64.ofNat count }.write (countLine count file)
  | .total =>
      .ok { s with total := s.total + UInt64.ofNat (countFile opts settings.sequential r) }

/-- Open a file and show it, or complain about it. -/
def visitFile (files : FileSystem) (settings : Settings) (opts : Options) (s : Session)
    (file : Path) : Except Breakdown Session :=
  match Reader.openFile files file with
  | .error e => .ok (s.complain e.message)
  | .ok r => s.showFile settings opts file r

/-- Show what is due after the last file, and drive out the output. -/
def close (s : Session) (settings : Settings) : Except Breakdown Session :=
  let summary :=
    match settings.mode with
    | .total => totalLine s.total.toNat
    | .counts => if 1 < settings.files.length then grandTotalLine s.total.toNat else []
    | .numbered => []
  match s.write summary with
  | .error b => .error b
  | .ok s =>
      match s.output.flush with
      | .ok output => .ok { s with output := output }
      | .error e => .error (s.breakOff e.display)

end

end Session

/-- The name in front of each complaint. -/
def programName : String := "flines"

/-- Complaints as they are shown, one on a line. -/
def complaintText (latest : List String) : String :=
  String.join (latest.reverse.map fun text => programName ++ ": " ++ text ++ "\n")

/-- All that happens to the files, from the first to the end of the output. -/
def runFiles [Platform] (files : FileSystem) (device : Device) (settings : Settings)
    (opts : Options) : Except Breakdown Session :=
  match settings.files.foldlM (Session.visitFile files settings opts) (Session.start device) with
  | .error b => .error b
  | .ok s => s.close settings

/-- What a run leaves behind.  It fails if there was anything to complain about;
a device that refuses output has taken none. -/
def report [Platform] (files : FileSystem) (device : Device) (settings : Settings) : Report :=
  match Options.new settings.threads settings.minSize with
  | .error e => ⟨1, [], complaintText [e.message]⟩
  | .ok opts =>
      match runFiles files device settings opts with
      | .error b => ⟨1, [], complaintText b.complaints⟩
      | .ok s =>
          ⟨if s.complaints.isEmpty then 0 else 1, s.output.contents, complaintText s.complaints⟩

/-! ## Answering a command line -/

/-- The answer to a question for the version. -/
def versionText : String := programName ++ " 0.1.0\n"

/-- The answer to a question for help. -/
def helpText : String :=
  "Count or print the lines of each FILE using memory-mapped I/O

Usage: " ++ programName ++ " [OPTIONS] <FILES>...

Arguments:
  <FILES>...  Files to read

Options:
  -j, --threads <THREADS>  Number of worker threads for large files (2-8) [default: 2]
      --min-size <BYTES>   Files smaller than this many bytes are scanned on one thread [default: 1048576]
  -s, --sequential         Always scan sequentially
  -n, --number             Print every line prefixed with its line number instead of counting
  -q, --count-only         Print only the total line count as a bare number
  -h, --help               Print help
  -V, --version            Print version
"

/-- A text on standard output.  A full device does not get it, and nobody
minds. -/
def announce (device : Device) (text : String) : Report :=
  match device with
  | .writable => ⟨0, Utf8.encode text, ""⟩
  | .full => ⟨0, [], ""⟩

/-- The answer to a command line.  How a misuse is explained is not settled here. -/
def respond [Platform] (files : FileSystem) (device : Device) (arguments : List Bytes) : Report :=
  match Request.ofArguments arguments with
  | .help => announce device helpText
  | .version => announce device versionText
  | .misuse => ⟨2, [], ""⟩
  | .run settings => report files device settings

end Linewise
