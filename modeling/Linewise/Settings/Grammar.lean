import Mathlib.Data.Nat.Digits.Defs
import Linewise.Settings

/-!
# The grammar of a command line

What a command line says can be told apart from how it is written down.  It says its parts,
one after the other: switches, quantities and files.  A switch has a long name and a letter,
and letters may be run together behind one dash.  A quantity brings its value along, in the
same argument or in the next one.  Behind two dashes alone everything is a file.

The relations of this module say which arguments are a way to write down which parts.  They
name every spelling there is, and do not say how to find out which one it is.

* `Spells` — the digits of a number;
* `Phrase` — one part, or a run of switches, written down; `Written` — any number of phrases;
  `CommandLine` — the same with files behind two dashes;
* `Admissible`, `Gives` — parts that go together, and the settings that they give;
* `Renders` — arguments that are a way to write settings down;
* `Reaches` — arguments that ask for help or for the version before anything is wrong.
-/

namespace Linewise

/-- The number for digits of which the most significant comes first. -/
def placeValue (digits : Bytes) : Nat :=
  Nat.ofDigits 10 (digits.reverse.map fun b => b.toNat - 48)

/-- An optional plus sign and at least one digit, for a number that fits in 64 bits. -/
def Spells (value : Bytes) (n : Nat) : Prop :=
  ∃ digits : Bytes, (value = digits ∨ value = plusSign :: digits) ∧
    digits ≠ [] ∧ (∀ b ∈ digits, 48 ≤ b ∧ b ≤ 57) ∧ n = placeValue digits ∧ n < 2 ^ 64

/-! ## What a command line says -/

/-- The options without a value that change what is done. -/
inductive Switch where
  | sequential
  | number
  | countOnly
  deriving Repr, DecidableEq

/-- The options with a value, which is a number. -/
inductive Quantity where
  | threads
  | minSize
  deriving Repr, DecidableEq

/-- What a command line says, piece by piece. -/
inductive Part where
  | switch (s : Switch)
  | quantity (q : Quantity) (n : Nat)
  | file (name : Bytes)
  deriving Repr, DecidableEq

namespace Switch

def name : Switch → String
  | sequential => "sequential"
  | number => "number"
  | countOnly => "count-only"

def letter : Switch → Char
  | sequential => 's'
  | number => 'n'
  | countOnly => 'q'

def option : Switch → CommandOption
  | sequential => .sequential
  | number => .number
  | countOnly => .countOnly

end Switch

namespace Quantity

def name : Quantity → String
  | threads => "threads"
  | minSize => "min-size"

def option : Quantity → CommandOption
  | threads => .threads
  | minSize => .minSize

end Quantity

namespace Part

def option? : Part → Option CommandOption
  | switch s => some s.option
  | quantity q _ => some q.option
  | file _ => none

def file? : Part → Option Bytes
  | file name => some name
  | _ => none

/-- The value that the part gives to the quantity `q`. -/
def valueOf? (q : Quantity) : Part → Option Nat
  | quantity r n => if r = q then some n else none
  | _ => none

end Part

/-! ## How it is written down -/

/-- The byte that stands for a letter. -/
def letterByte (c : Char) : UInt8 := c.toNat.toUInt8

/-- A long name behind two dashes. -/
def longWord (name : String) : Bytes := dash :: dash :: Utf8.encode name

/-- Two dashes alone. -/
def endOfOptions : Bytes := [dash, dash]

/-- The letters of switches, run together. -/
def letters (switches : List Switch) : Bytes :=
  switches.map fun s => letterByte s.letter

@[simp] theorem letters_cons (s : Switch) (switches : List Switch) :
    letters (s :: switches) = letterByte s.letter :: letters switches := rfl

@[simp] theorem letters_eq_nil_iff {switches : List Switch} :
    letters switches = [] ↔ switches = [] := List.map_eq_nil_iff

/-- Letters behind one dash, with whatever follows the letters. -/
def cluster (switches : List Switch) (rest : Bytes) : Bytes :=
  dash :: (letters switches ++ rest)

/-- The letter of the number of threads, with whatever follows it. -/
def threadsLetter (rest : Bytes) : Bytes := letterByte 'j' :: rest

/-- An argument that ends with the name of a quantity, behind some switches.  The value is
in the next argument. -/
inductive AwaitsValue : Bytes → List Switch → Quantity → Prop
  | long (q : Quantity) : AwaitsValue (longWord q.name) [] q
  | short (switches : List Switch) :
      AwaitsValue (cluster switches (threadsLetter [])) switches .threads

/-- One or two arguments that say something by themselves. -/
inductive Phrase : List Bytes → List Part → Prop
  /-- A file, which does not look like an option.  A single dash does not. -/
  | file {name : Bytes} (plain : name.head? ≠ some dash ∨ name = [dash]) :
      Phrase [name] [.file name]
  | longSwitch (s : Switch) : Phrase [longWord s.name] [.switch s]
  | letters {switches : List Switch} (nonempty : switches ≠ []) :
      Phrase [cluster switches []] (switches.map .switch)
  | longValue (q : Quantity) {value : Bytes} {n : Nat} (spells : Spells value n) :
      Phrase [longWord q.name ++ equalsSign :: value] [.quantity q n]
  | shortValue (switches : List Switch) {value : Bytes} {n : Nat} (spells : Spells value n) :
      Phrase [cluster switches (threadsLetter value)]
        (switches.map .switch ++ [.quantity .threads n])
  | shortEquals (switches : List Switch) {value : Bytes} {n : Nat} (spells : Spells value n) :
      Phrase [cluster switches (threadsLetter (equalsSign :: value))]
        (switches.map .switch ++ [.quantity .threads n])
  | valueApart {opener value : Bytes} {switches : List Switch} {q : Quantity} {n : Nat}
      (awaits : AwaitsValue opener switches q) (spells : Spells value n) :
      Phrase [opener, value] (switches.map .switch ++ [.quantity q n])

/-- Phrases, one behind the other. -/
inductive Written : List Bytes → List Part → Prop
  | nothing : Written [] []
  | more {phrase rest : List Bytes} {parts later : List Part} (first : Phrase phrase parts)
      (tail : Written rest later) : Written (phrase ++ rest) (parts ++ later)

/-- Phrases, and perhaps files of any names behind the end of the options. -/
inductive CommandLine : List Bytes → List Part → Prop
  | plain {arguments : List Bytes} {parts : List Part} (written : Written arguments parts) :
      CommandLine arguments parts
  | ended {front files : List Bytes} {parts : List Part} (written : Written front parts) :
      CommandLine (front ++ endOfOptions :: files) (parts ++ files.map .file)

/-! ## What it gives -/

/-- No option is given twice, and the names of the files are text. -/
structure Admissible (parts : List Part) : Prop where
  once : (parts.filterMap Part.option?).Nodup
  text : ∀ name, Part.file name ∈ parts → (Utf8.decode? name).isSome

/-- The parts give the settings: two threads and one mebibyte unless they say otherwise, and
the files in their order. -/
structure Gives (parts : List Part) (settings : Settings) : Prop where
  admissible : Admissible parts
  threads_eq : settings.threads = (parts.findSome? (Part.valueOf? .threads)).getD 2
  minSize_eq : settings.minSize = (parts.findSome? (Part.valueOf? .minSize)).getD 1048576
  sequential_iff : settings.sequential = true ↔ Part.switch .sequential ∈ parts
  numbered_iff : settings.mode = .numbered ↔ Part.switch .number ∈ parts
  total_iff : settings.mode = .total ↔ Part.switch .countOnly ∈ parts
  not_both : ¬ (Part.switch .number ∈ parts ∧ Part.switch .countOnly ∈ parts)
  files_eq : settings.files = parts.filterMap Part.file?
  files_ne_nil : settings.files ≠ []

/-- The arguments are a way to write the settings down. -/
def Renders (settings : Settings) (arguments : List Bytes) : Prop :=
  ∃ parts, CommandLine arguments parts ∧ Gives parts settings

/-! ## Help and version -/

/-- An argument that asks for help or for the version, behind some switches.  Behind the
letter it may go on in any way. -/
inductive AsksFor : Bytes → List Switch → Request → Prop
  | longHelp : AsksFor (longWord "help") [] .help
  | longVersion : AsksFor (longWord "version") [] .version
  | shortHelp (switches : List Switch) (rest : Bytes) :
      AsksFor (cluster switches (letterByte 'h' :: rest)) switches .help
  | shortVersion (switches : List Switch) (rest : Bytes) :
      AsksFor (cluster switches (letterByte 'V' :: rest)) switches .version

/-- Some argument asks for `request`, and nothing before it is wrong.  What comes behind it
does not matter, and neither does what only the whole can violate. -/
def Reaches (request : Request) (arguments : List Bytes) : Prop :=
  ∃ front parts asking switches rest, arguments = front ++ asking :: rest ∧
    Written front parts ∧ AsksFor asking switches request ∧
    Admissible (parts ++ switches.map .switch)

end Linewise
