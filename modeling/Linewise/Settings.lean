import Linewise.Split.Options
import Linewise.Utf8

/-!
# Settings from the command line

The command line names the files to read and, mixed with them in any order, the
options.  An option has a long name behind two dashes and may have a short one
behind a single dash; short options without a value may be run together.  An
option with a value takes it from the same argument or from the next one.

Arguments are read from left to right.  The first that is wrong, or that asks
for help or for the version, ends the reading; what only the command line as a
whole can violate is looked at when it has been read to its end.

* `CommandOption` — the options, with their names;
* `Given.readArgument` — what one argument does;
* `Request.ofArguments` — what the command line asks for.
-/

namespace Linewise

/-- What is shown of the files. -/
inductive Mode where
  /-- The number of lines of each file, and their sum if there are several. -/
  | counts
  /-- Every line, behind its number. -/
  | numbered
  /-- The number of lines of all files together. -/
  | total
  deriving Repr, DecidableEq

/-- What to do. -/
structure Settings where
  threads : Nat
  /-- The size from which a file is shared among the workers. -/
  minSize : Nat
  sequential : Bool
  mode : Mode
  files : List Bytes
  deriving Repr, DecidableEq

/-- What a command line asks for. -/
inductive Request where
  | help
  | version
  | misuse
  | run (settings : Settings)
  deriving Repr, DecidableEq

/-! ## The options -/

/-- The options of the command. -/
inductive CommandOption where
  | threads
  | minSize
  | sequential
  | number
  | countOnly
  | help
  | version
  deriving Repr, DecidableEq

namespace CommandOption

/-- All options, in the order in which they are looked up. -/
def all : List CommandOption :=
  [threads, minSize, sequential, number, countOnly, help, version]

/-- The long name, without the dashes. -/
def long : CommandOption → String
  | threads => "threads"
  | minSize => "min-size"
  | sequential => "sequential"
  | number => "number"
  | countOnly => "count-only"
  | help => "help"
  | version => "version"

/-- The letter, if there is one. -/
def short? : CommandOption → Option Char
  | threads => some 'j'
  | minSize => none
  | sequential => some 's'
  | number => some 'n'
  | countOnly => some 'q'
  | help => some 'h'
  | version => some 'V'

/-- A number belongs to the option. -/
def takesValue : CommandOption → Bool
  | threads => true
  | minSize => true
  | _ => false

/-- The option of a long name, which has to be complete. -/
def ofLong? (name : Bytes) : Option CommandOption :=
  all.find? fun option => Utf8.encode option.long == name

/-- The option with the letter, if there is one. -/
def ofShort? (name : UInt8) : Option CommandOption :=
  all.find? fun option => option.short?.any fun c => c.toNat == name.toNat

end CommandOption

/-- The byte `'-'`. -/
def dash : UInt8 := 45

/-- The byte `'='`. -/
def equalsSign : UInt8 := 61

/-- The byte `'+'`. -/
def plusSign : UInt8 := 43

/-- The values that a number has to stay below. -/
def numberLimit : Nat := Nat.pow 2 64

/-- The value of a byte from `'0'` to `'9'`. -/
def digit? (b : UInt8) : Option Nat :=
  if 48 ≤ b ∧ b ≤ 57 then some (b.toNat - 48) else none

/-- The number that a value spells: an optional plus sign, then digits, below
the limit. -/
def number? (value : Bytes) : Option Nat :=
  let digits := if value.head? = some plusSign then value.tail else value
  if digits.isEmpty then none
  else match digits.mapM digit? with
    | none => none
    | some ds =>
        let n := ds.foldl (fun n d => n * 10 + d) 0
        if n < numberLimit then some n else none

/-! ## Reading the arguments -/

/-- What the arguments read so far have given. -/
structure Given where
  threads : Option Nat
  minSize : Option Nat
  sequential : Bool
  number : Bool
  countOnly : Bool
  /-- The files, the latest first. -/
  files : List Bytes
  deriving Repr, DecidableEq

/-- What the next argument may be. -/
inductive Awaiting where
  | anything
  /-- The value of an option. -/
  | valueOf (option : CommandOption)
  /-- A file: the options have been ended. -/
  | file
  deriving Repr, DecidableEq

namespace Given

/-- Nothing has been given yet. -/
def nothing : Given := ⟨none, none, false, false, false, []⟩

/-- Take a file.  Its name has to be text. -/
def addFile (g : Given) (name : Bytes) : Except Request Given :=
  if (Utf8.decode? name).isSome then .ok { g with files := name :: g.files }
  else .error .misuse

/-- Take an option without a value.  None may be given twice, and the requests
for help and for the version are met at once. -/
def addSwitch (g : Given) : CommandOption → Except Request Given
  | .sequential => if g.sequential then .error .misuse else .ok { g with sequential := true }
  | .number => if g.number then .error .misuse else .ok { g with number := true }
  | .countOnly => if g.countOnly then .error .misuse else .ok { g with countOnly := true }
  | .help => .error .help
  | .version => .error .version
  | .threads => .error .misuse
  | .minSize => .error .misuse

/-- Take an option with its value.  None may be given twice. -/
def addValue (g : Given) (option : CommandOption) (value : Bytes) : Except Request Given :=
  match number? value with
  | none => .error .misuse
  | some n =>
      match option with
      | .threads =>
          if g.threads.isSome then .error .misuse else .ok { g with threads := some n }
      | .minSize =>
          if g.minSize.isSome then .error .misuse else .ok { g with minSize := some n }
      | _ => .error .misuse

/-- Read what stands behind two dashes: a long name, and perhaps a value behind
an equals sign. -/
def readLong (g : Given) (body : Bytes) : Except Request (Given × Awaiting) :=
  match CommandOption.ofLong? (body.takeWhile (· != equalsSign)) with
  | none => .error .misuse
  | some option =>
      match body.dropWhile (· != equalsSign) with
      | [] =>
          if option.takesValue then .ok (g, .valueOf option)
          else (g.addSwitch option).map (·, .anything)
      | _ :: value =>
          if option.takesValue then (g.addValue option value).map (·, .anything)
          else .error .misuse

/-- Read what stands behind one dash: short names, of which the first that takes
a value has the rest for its value, with or without an equals sign before it. -/
def readShort (g : Given) : Bytes → Except Request (Given × Awaiting)
  | [] => .ok (g, .anything)
  | name :: rest =>
      match CommandOption.ofShort? name with
      | none => .error .misuse
      | some option =>
          if option.takesValue then
            match rest with
            | [] => .ok (g, .valueOf option)
            | c :: cs =>
                (g.addValue option (if c = equalsSign then cs else c :: cs)).map (·, .anything)
          else
            match g.addSwitch option with
            | .error request => .error request
            | .ok g => g.readShort rest

/-- Read one argument.  A single dash is a file; two dashes alone end the
options; an argument that looks like an option is never taken for a value. -/
def readArgument : Given × Awaiting → Bytes → Except Request (Given × Awaiting)
  | (g, .file), argument => (g.addFile argument).map (·, .file)
  | (g, .valueOf option), argument =>
      if argument.head? = some dash ∧ argument ≠ [dash] then .error .misuse
      else (g.addValue option argument).map (·, .anything)
  | (g, .anything), argument =>
      if argument.head? = some dash ∧ argument ≠ [dash] then
        match argument.tail with
        | [] => .error .misuse
        | c :: cs =>
            if c = dash then
              if cs = [] then .ok (g, .file) else g.readLong cs
            else g.readShort (c :: cs)
      else (g.addFile argument).map (·, .anything)

/-- What the given arguments ask for, when there are no more.  There has to be a
file, no value may be missing, and lines are not both numbered and only
counted. -/
def finish : Given × Awaiting → Request
  | (_, .valueOf _) => .misuse
  | (g, _) =>
      if g.files.isEmpty ∨ (g.number ∧ g.countOnly) then .misuse
      else .run
        { threads := g.threads.getD Options.default.threads
          minSize := g.minSize.getD Options.default.minSize
          sequential := g.sequential
          mode := if g.number then .numbered else if g.countOnly then .total else .counts
          files := g.files.reverse }

end Given

/-- What a command line asks for. -/
def Request.ofArguments (arguments : List Bytes) : Request :=
  match arguments.foldlM Given.readArgument (Given.nothing, .anything) with
  | .error request => request
  | .ok state => Given.finish state

end Linewise
