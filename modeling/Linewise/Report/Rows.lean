import Mathlib.Algebra.GroupWithZero.Nat
import Linewise.Report

/-!
# The rows of a report

What a report shows can be said without running it.  Of the files that are named, some can
be opened; each of these gives its rows in turn, and a summary may follow.  A row is ended by
a newline, as a line is, but a row that shows the name of a file may hold newlines of its
own.

* `FileSystem.opened`, `FileSystem.refusals` — the files that can be opened, and why the
  others cannot;
* `FileSystem.linesOf` — the lines that a scanner hands out of the content of a file;
* `FileSystem.lineTotal`, `FileSystem.lineSum` — the number of all of these lines, and what
  sixty-four bits keep of it;
* `fileRows`, `summaryRows` — what is shown of one file, and after the last;
* `numberedRows` — the lines of a file behind their numbers; `afterTab` takes a number off
  again.
-/

namespace Linewise

namespace FileSystem

variable [Platform] (files : FileSystem)

/-- Whether a reader of the file can be had. -/
def opens (file : Path) : Bool :=
  match Reader.openFile files file with
  | .ok _ => true
  | .error _ => false

/-- Why no reader of the file can be had. -/
def refusal? (file : Path) : Option OpenError :=
  match Reader.openFile files file with
  | .ok _ => none
  | .error e => some e

/-- Those of the named files that can be opened, in the order in which they are named. -/
def opened (named : List Path) : List Path := named.filter (opens files)

/-- Why those of the named files that cannot be opened cannot. -/
def refusals (named : List Path) : List OpenError := named.filterMap (refusal? files)

/-- The bytes that the file shows when it has been opened.  One that cannot be opened shows
none. -/
def content (file : Path) : Bytes :=
  match Reader.openFile files file with
  | .ok r => r.bytes
  | .error _ => []

/-- The lines of the file, as a scanner hands them out. -/
def linesOf (file : Path) : List Bytes := (Scanner.ofBytes (content files file)).rest

/-- The number of lines of all named files that can be opened.  One that is named twice
counts twice. -/
def lineTotal (named : List Path) : Nat :=
  ((opened files named).map fun file => (linesOf files file).length).sum

/-- The same number, as far as sixty-four bits keep it. -/
def lineSum (named : List Path) : Nat := lineTotal files named % 2 ^ 64

/-- A number of lines that fits is kept as it is. -/
theorem lineSum_eq_lineTotal {named : List Path} (h : lineTotal files named < 2 ^ 64) :
    lineSum files named = lineTotal files named :=
  Nat.mod_eq_of_lt h

end FileSystem

/-- A line behind its number. -/
def numberedRow (number : Nat) (line : Bytes) : Bytes :=
  padded numberWidth number ++ tab :: line

/-- The lines of a file behind their numbers, which begin with one. -/
def numberedRows (ls : List Bytes) : List Bytes :=
  ls.mapIdx fun i line => numberedRow (i + 1) line

/-- What stands behind the first tab of a row. -/
def afterTab (row : Bytes) : Bytes := (row.dropWhile (· != tab)).tail

/-- The count of a file before its name. -/
def countRow (count : Nat) (file : Path) : Bytes := decimal count ++ blank :: file

/-- The sum below the counts. -/
def grandTotalRow (total : Nat) : Bytes := decimal total ++ Utf8.encode " total"

/-- What is shown of a file with the lines `ls`. -/
def fileRows (mode : Mode) (file : Path) (ls : List Bytes) : List Bytes :=
  match mode with
  | .counts => [countRow ls.length file]
  | .numbered => numberedRows ls
  | .total => []

/-- What is shown after the last of so many named files, with so many lines in all. -/
def summaryRows (mode : Mode) (named total : Nat) : List Bytes :=
  match mode with
  | .counts => if 1 < named then [grandTotalRow total] else []
  | .numbered => []
  | .total => [decimal total]

/-- What is shown of all named files, before the summary. -/
def FileSystem.rows [Platform] (files : FileSystem) (mode : Mode) (named : List Path) :
    List Bytes :=
  (files.opened named).flatMap fun file => fileRows mode file (files.linesOf file)

end Linewise
