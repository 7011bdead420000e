import Mathlib.Data.List.TakeWhile
import Linewise.Proofs.VisitCourse
import Linewise.Proofs.Writing
import Linewise.Report.Rows

/-!
# Numbered lines

A line is shown behind its number and a tab.  A number is written with digits, and with
blanks to fill its column, so the first tab of such a row is the one behind the number,
whatever the line holds, and the only newline is the one that ends the row.

* `digit?_of_mem_decimal`, `number?_decimal` — a number is written with digits, and they are
  read as that number again;
* `not_mem_padded` — nothing else but blanks is in the column of a number;
* `afterTab_numberedRow` — **what stands behind the number is the line**;
* `printNumbered_eq` — a visit writes the pieces of such rows for the lines of a scan, counted
  from one.
-/

namespace Linewise

/-! ## Digits -/

/-- A number below ten is written with one digit. -/
theorem decimal_of_lt {n : Nat} (h : n < 10) : decimal n = [(48 + n).toUInt8] := by
  rw [decimal, Nat.toDigits_of_lt_base h, List.map_singleton, Nat.toNat_digitChar_of_lt_ten h]

/-- The last digit comes behind those of the tenth part. -/
theorem decimal_of_le {n : Nat} (h : 10 ≤ n) :
    decimal n = decimal (n / 10) ++ decimal (n % 10) := by
  have hlast : n % 10 < 10 := Nat.mod_lt n (by decide)
  rw [decimal, Nat.toDigits_of_base_le (by decide) h, List.map_append, ← decimal,
    ← Nat.toDigits_of_lt_base hlast, ← decimal]

/-- Writing a number down goes digit by digit. -/
@[elab_as_elim]
theorem decimal_induction {motive : Nat → Prop} (single : ∀ n, n < 10 → motive n)
    (more : ∀ n, 10 ≤ n → motive (n / 10) → motive n) (n : Nat) : motive n := by
  induction n using Nat.strongRecOn with
  | ind n ih =>
      by_cases h : n < 10
      · exact single n h
      · have hle : 10 ≤ n := Nat.le_of_not_lt h
        exact more n hle (ih (n / 10) (by omega))

/-- A digit is read as itself. -/
theorem digit?_digit {d : Nat} (h : d < 10) : digit? (48 + d).toUInt8 = some d := by
  have hall : ∀ d, d < 10 → digit? (48 + d).toUInt8 = some d := by decide
  exact hall d h

/-- A number below ten is read again. -/
theorem mapM_digit?_decimal_of_lt {n : Nat} (h : n < 10) :
    (decimal n).mapM digit? = some [n] := by
  rw [decimal_of_lt h, List.mapM_cons, digit?_digit h]
  rfl

/-- **A number is read again.**  Its digits are those that were written. -/
theorem exists_digits (n : Nat) :
    ∃ ds, (decimal n).mapM digit? = some ds ∧ ds.foldl (fun n d => n * 10 + d) 0 = n := by
  induction n using decimal_induction with
  | single n h => exact ⟨[n], mapM_digit?_decimal_of_lt h, by simp⟩
  | more n h ih =>
      obtain ⟨ds, hread, hvalue⟩ := ih
      have hlast := mapM_digit?_decimal_of_lt (Nat.mod_lt n (by decide : 0 < 10))
      refine ⟨ds ++ [n % 10], ?_, ?_⟩
      · rw [decimal_of_le h, List.mapM_append, hread, hlast]
        rfl
      · rw [List.foldl_append, hvalue]
        simp only [List.foldl_cons, List.foldl_nil]
        omega

/-- A number is written with digits alone. -/
theorem digit?_of_mem_decimal {n : Nat} {b : UInt8} (h : b ∈ decimal n) :
    (digit? b).isSome := by
  induction n using decimal_induction with
  | single n hn =>
      rw [decimal_of_lt hn, List.mem_singleton] at h
      rw [h, digit?_digit hn]
      rfl
  | more n hn ih =>
      have hlast : n % 10 < 10 := Nat.mod_lt n (by decide)
      rw [decimal_of_le hn, decimal_of_lt hlast, List.mem_append, List.mem_singleton] at h
      rcases h with hfront | rfl
      · exact ih hfront
      · rw [digit?_digit hlast]
        rfl

/-- A number is written with one digit at least. -/
theorem decimal_ne_nil (n : Nat) : decimal n ≠ [] := by
  rw [decimal, ne_eq, List.map_eq_nil_iff]
  exact Nat.toDigits_ne_nil

/-- A number that is written is read as itself, if it is within bounds. -/
theorem number?_decimal {n : Nat} (h : n < numberLimit) : number? (decimal n) = some n := by
  obtain ⟨ds, hread, hvalue⟩ := exists_digits n
  -- No sign is written, so all of the bytes are digits.
  have hsign : (decimal n).head? ≠ some plusSign := by
    intro hhead
    have hdigit := digit?_of_mem_decimal (List.mem_of_mem_head? hhead)
    simp [digit?, plusSign] at hdigit
  have hne : (decimal n).isEmpty = false := by simp [decimal_ne_nil]
  simp [number?, if_neg hsign, hne, hread, hvalue, h]

/-- Nothing else but blanks is in the column of a number. -/
theorem not_mem_padded {b : UInt8} (hblank : b ≠ blank) (hdigit : digit? b = none)
    (width n : Nat) : b ∉ padded width n := by
  intro hmem
  rcases List.mem_append.mp hmem with hfill | hnumber
  · exact hblank (List.eq_of_mem_replicate hfill)
  · have hsome := digit?_of_mem_decimal hnumber
    rw [hdigit] at hsome
    cases hsome

/-! ## Rows -/

/-- **What stands behind the number is the line**, whatever it holds. -/
theorem afterTab_numberedRow (number : Nat) (line : Bytes) :
    afterTab (numberedRow number line) = line := by
  have htab : tab ∉ padded numberWidth number :=
    not_mem_padded (by decide) (by decide) numberWidth number
  have hcolumn : ∀ b ∈ padded numberWidth number, (b != tab) = true := by
    intro b hb
    rw [bne_iff_ne]
    rintro rfl
    exact htab hb
  rw [afterTab, numberedRow, List.dropWhile_append_of_pos hcolumn]
  simp

/-- A row of a line holds no newline, if the line does not. -/
theorem newline_not_mem_numberedRow (number : Nat) {line : Bytes} (h : newline ∉ line) :
    newline ∉ numberedRow number line := by
  have hcolumn : newline ∉ padded numberWidth number :=
    not_mem_padded (by decide) (by decide) numberWidth number
  simp only [numberedRow, List.mem_append, List.mem_cons]
  rintro (hmem | htab | hmem)
  · exact hcolumn hmem
  · exact absurd htab (by decide)
  · exact h hmem

/-- The rows of the lines are read back as these lines. -/
theorem map_afterTab_numberedRows (ls : List Bytes) : (numberedRows ls).map afterTab = ls := by
  apply List.ext_getElem
  · simp [numberedRows]
  · intro i hi hline
    simp [numberedRows, afterTab_numberedRow]

/-- No row holds a newline, if no line does. -/
theorem newline_not_mem_of_mem_numberedRows {ls : List Bytes} (h : ∀ l ∈ ls, newline ∉ l) :
    ∀ row ∈ numberedRows ls, newline ∉ row := by
  intro row hrow
  obtain ⟨i, hi, rfl⟩ := List.mem_mapIdx.mp hrow
  exact newline_not_mem_numberedRow (i + 1) (h _ (List.getElem_mem hi))

/-! ## Writing the rows -/

/-- The rows of lines that come after `before` others. -/
def rowsAfter (before : Nat) (ls : List Bytes) : List Bytes :=
  ls.mapIdx fun i line => numberedRow (before + i + 1) line

theorem rowsAfter_cons (before : Nat) (line : Bytes) (ls : List Bytes) :
    rowsAfter before (line :: ls) =
      numberedRow (before + 1) line :: rowsAfter (before + 1) ls := by
  have hshift : ∀ i, before + (i + 1) + 1 = before + 1 + i + 1 := by omega
  simp only [rowsAfter, List.mapIdx_cons, hshift, Nat.add_zero]

theorem rowsAfter_zero (ls : List Bytes) : rowsAfter 0 ls = numberedRows ls := by
  simp [rowsAfter, numberedRows]

/-- The pieces in which these rows are written. -/
def piecesAfter (before : Nat) : List Bytes → List Bytes
  | [] => []
  | line :: ls => numberedLine (before + 1) line ++ piecesAfter (before + 1) ls

/-- The pieces make up the rows, and the newlines that end them. -/
theorem flatten_piecesAfter (before : Nat) (ls : List Bytes) :
    (piecesAfter before ls).flatten = terminated (rowsAfter before ls) := by
  induction ls generalizing before with
  | nil => rfl
  | cons line ls ih =>
      rw [piecesAfter, List.flatten_append, ih, rowsAfter_cons, terminated_cons]
      simp [numberedLine, numberedRow]

/-- A line is accepted when its pieces are written, and fails as they do. -/
theorem numberLine_cases (state : Output × Nat) (line : Bytes) :
    (∃ next, numberLine state line = (.accept, (next, state.2 + 1)) ∧
      state.1.writeAll (numberedLine (state.2 + 1) line) = .ok next) ∨
    ∃ e, numberLine state line = (.fail e, (state.1, state.2 + 1)) ∧
      state.1.writeAll (numberedLine (state.2 + 1) line) = .error e := by
  cases hwrite : state.1.writeAll (numberedLine (state.2 + 1) line) with
  | ok next => exact Or.inl ⟨next, by simp [numberLine, hwrite], rfl⟩
  | error e => exact Or.inr ⟨e, by simp [numberLine, hwrite], rfl⟩

/-- The output of a visit that writes rows, if it was done. -/
def rowsWritten : Outcome IoError Empty × (Output × Nat) × Scanner → Except IoError Output
  | (.done _, (output, _), _) => .ok output
  | (.failed e, _, _) => .error e

/-- A visit that writes rows writes the pieces of the lines that were left, one after the
other.  The induction is along the visit; the state tells how many lines there were before. -/
theorem Scanner.Course.rowsWritten_eq {count : Nat} {state : Output × Nat} {s : Scanner}
    {result : Outcome IoError Empty × (Output × Nat) × Scanner}
    (h : Course numberLine count state s result) :
    rowsWritten result = state.1.writeAll (piecesAfter state.2 (lines s.remaining)) := by
  induction h with
  | @done count state s t rest =>
      rw [remaining_of_getline_none rest]
      rfl
  | @accepted count state next s t line result taken reply later ih =>
      obtain ⟨output, hvisit, hwrite⟩ | ⟨e, hvisit, -⟩ := numberLine_cases state line
      · obtain ⟨-, rfl⟩ := Prod.mk.inj (hvisit.symm.trans reply)
        rw [ih, lines_remaining_of_getline taken, piecesAfter, Output.writeAll_append, hwrite]
        rfl
      · cases hvisit.symm.trans reply
  | @failed count state next s t line error taken reply =>
      obtain ⟨output, hvisit, -⟩ | ⟨e, hvisit, hwrite⟩ := numberLine_cases state line
      · cases hvisit.symm.trans reply
      · cases hvisit.symm.trans reply
        rw [lines_remaining_of_getline taken, piecesAfter, Output.writeAll_append, hwrite]
        rfl
  | @aborted count state next s t line payload taken reply => exact payload.elim

/-- **The rows of a file** are written in the pieces of the lines that are left, counted from
one. -/
theorem printNumbered_eq (r : Reader) (output : Output) :
    printNumbered r output = output.writeAll (piecesAfter 0 (lines r.scan.remaining)) := by
  have hrows := (Scanner.course_forEach numberLine (output, 0) r.scan).rowsWritten_eq
  have hanswer := r.forEach_answer numberLine (output, 0)
  rw [← hrows, printNumbered]
  rcases hscan : r.scan.forEach numberLine (output, 0) with ⟨outcome, state, t⟩
  rcases hvisit : r.forEach numberLine (output, 0) with ⟨outcome', state', next⟩
  rw [hscan, hvisit] at hanswer
  obtain ⟨rfl, rfl⟩ := hanswer
  cases outcome' with
  | done n => rfl
  | failed e => rfl
  | aborted payload => exact payload.elim

end Linewise
