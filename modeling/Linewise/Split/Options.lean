/-!
# Options of a split

A split shares a byte string among worker threads.  The options say among how
many, and from which size on the sharing is worth its cost.  The number of
threads is between `Options.minThreads` and `Options.maxThreads` by type, so
that a caller may keep one place per thread in a table of fixed size.
-/

namespace Linewise

/-- Why a request for options was refused. -/
inductive OptionError where
  | threadsOutOfRange (requested : Nat)
  deriving Repr, DecidableEq

/-- A request for other options. -/
inductive OptionRequest where
  | new (threads minSize : Nat)
  | threads (n : Nat)
  | minSize (n : Nat)
  deriving Repr, DecidableEq

/-- How a byte string is shared among worker threads. -/
structure Options where
  threads : Nat
  /-- The size in bytes from which the work is shared. -/
  minSize : Nat
  two_le_threads : 2 ≤ threads
  threads_le_eight : threads ≤ 8
  deriving DecidableEq

namespace Options

/-- The fewest threads there may be. -/
def minThreads : Nat := 2

/-- The most threads there may be. -/
def maxThreads : Nat := 8

/-- Two threads, from one mebibyte on. -/
def default : Options := ⟨2, 1048576, by decide, by decide⟩

/-- The same options with another number of threads, if that is in range. -/
def withThreads (opts : Options) (n : Nat) : Except OptionError Options :=
  if h : 2 ≤ n ∧ n ≤ 8 then .ok ⟨n, opts.minSize, h.1, h.2⟩
  else .error (.threadsOutOfRange n)

/-- The same options with another size from which on data are split. -/
def withMinSize (opts : Options) (n : Nat) : Options :=
  { opts with minSize := n }

/-- Options with this number of threads and this size, if the number is in range. -/
def new (threads minSize : Nat) : Except OptionError Options :=
  (default.withThreads threads).map (·.withMinSize minSize)

/-- The options after a request.  One that is refused leaves them as they were. -/
def grant (opts : Options) : OptionRequest → Options
  | .new threads minSize => (new threads minSize).toOption.getD opts
  | .threads n => (opts.withThreads n).toOption.getD opts
  | .minSize n => opts.withMinSize n

/-- The options after some requests, the first of them made first. -/
def after (opts : Options) (requests : List OptionRequest) : Options :=
  requests.foldl grant opts

/-- Whether a byte string of `length` bytes is too small to be shared. -/
def isSequential (opts : Options) (length : Nat) : Bool :=
  decide (length < opts.minSize)

/-- Asking for a number of threads succeeds exactly inside the range, and gives
that number. -/
theorem withThreads_eq_ok_iff {opts next : Options} {n : Nat} :
    opts.withThreads n = .ok next ↔ next.threads = n ∧ next.minSize = opts.minSize := by
  obtain ⟨t, m, h2, h8⟩ := next
  unfold withThreads
  split
  · rename_i h
    constructor
    · intro heq
      cases heq
      exact ⟨rfl, rfl⟩
    · rintro ⟨rfl, rfl⟩
      rfl
  · rename_i h
    constructor
    · intro heq
      cases heq
    · rintro ⟨rfl, -⟩
      exact absurd ⟨h2, h8⟩ h

end Options

/-- What is said of an option that is refused. -/
def OptionError.message : OptionError → String
  | threadsOutOfRange requested =>
      "invalid number of threads: " ++ toString requested ++ " (expected " ++
        toString Options.minThreads ++ "..=" ++ toString Options.maxThreads ++ ")"

end Linewise
