import Linewise.Proofs.SplitOutcome

/-!
# Counting lines

There are three ways to find out how many lines a byte string has: to count its
newlines and look at its last byte, to do that piece by piece, or to hand the lines
out.  The last byte of a piece tells something only in the last piece, because a plan
cuts behind newlines.

* `lineCount_eq_length_lines` — the newlines and the open tail number the lines;
* `sum_lineCount_plan` — so they do over the segments of a plan;
* `countLines_eq_length_lines` — and so they do over the pieces of a split;
* `countLines_agrees` — **all counts agree.**
-/

namespace Linewise

variable {ε π : Type}

theorem hasOpenTail_newline_cons (rest : Bytes) :
    hasOpenTail (newline :: rest) = hasOpenTail rest := by
  cases rest with
  | nil => rfl
  | cons c rest => exact hasOpenTail_cons_cons newline c rest

theorem lineCount_newline_cons (rest : Bytes) :
    lineCount (newline :: rest) = lineCount rest + 1 := by
  rw [lineCount, lineCount, List.count_cons_self, hasOpenTail_newline_cons]
  omega

/-- A byte in front of a line makes no line of its own. -/
theorem lineCount_cons_cons {b : UInt8} (hb : b ≠ newline) (c : UInt8) (rest : Bytes) :
    lineCount (b :: c :: rest) = lineCount (c :: rest) := by
  rw [lineCount, lineCount, List.count_cons_of_ne hb, hasOpenTail_cons_cons]

/-- **The newlines and the open tail** number the lines. -/
theorem lineCount_eq_length_lines (data : Bytes) : lineCount data = (lines data).length := by
  induction data with
  | nil => rfl
  | cons b rest ih =>
      by_cases hb : b = newline
      · rw [hb, lineCount_newline_cons, lines_newline_cons, List.length_cons, ih]
      · cases rest with
        | nil =>
            have hopen : hasOpenTail [b] = true := by
              simpa [hasOpenTail, inLine] using hb
            simp [lineCount, lines, hb, hopen]
        | cons c rest =>
            -- The byte joins the first line of the rest, so neither number changes.
            have hne : lines (c :: rest) ≠ [] := lines_ne_nil (List.cons_ne_nil c rest)
            obtain ⟨line, later, hlines⟩ := List.exists_cons_of_ne_nil hne
            rw [lineCount_cons_cons hb, ih, lines_cons_of_ne hb hlines, hlines]
            rfl

/-- The counts of several parts add up to the number of all their lines. -/
theorem sum_lineCount (parts : List Bytes) :
    (parts.map lineCount).sum = (parts.map lines).flatten.length := by
  rw [List.length_flatten, List.map_map]
  exact congrArg List.sum (List.map_congr_left fun part _ => lineCount_eq_length_lines part)

/-- The counts of the segments add up to the number of lines of the data. -/
theorem sum_lineCount_plan (data : Bytes) (parts : Nat) :
    ((plan data parts).map fun s => lineCount (s.slice data)).sum = (lines data).length := by
  have hsum := sum_lineCount ((plan data parts).map (·.slice data))
  rw [List.map_map, List.map_map] at hsum
  rw [← lines_plan data parts]
  exact hsum

/-- So does the count piece by piece, with any options. -/
theorem countLines_eq_length_lines (data : Bytes) (opts : Options) :
    countLines data opts = (lines data).length := by
  calc
    countLines data opts = ((pieces data opts).map lineCount).sum := by
      rw [countLines, List.sum_eq_foldl, List.foldl_map]
    _ = ((pieces data opts).map lines).flatten.length := sum_lineCount _
    _ = (lines data).length := by rw [lines_pieces]

/-- A split in which every line is accepted comes to the number of lines. -/
theorem split_of_accept (data : Bytes) (opts : Options) :
    (split data opts fun _ => (.accept : Reply ε π)) = .done (lines data).length := by
  have hverdict := split_eq_verdict (π := π) data opts fun _ => (.ok () : Except ε Unit)
  have hnone : ((lines data).findSome? fun _ => errorOf (.ok () : Except ε Unit)) = none :=
    List.findSome?_eq_none_iff.mpr fun _ _ => rfl
  rw [verdict, hnone] at hverdict
  exact hverdict

/-- **All counts agree**: that of the newlines, that of the newlines of each segment of
a plan, however many there are, and those of a scan and of a split that no reply stops.
They are the number of lines that a scanner hands out. -/
theorem countLines_agrees {σ : Type} (data : Bytes) (opts : Options) (visit : Visitor σ ε π)
    (state : σ) (haccept : ∀ state line, (visit state line).1 = .accept) :
    let n := (Scanner.ofBytes data).rest.length
    countLines data opts = n ∧
      lineCount data = n ∧
      (∀ parts, ((plan data parts).map fun s => lineCount (s.slice data)).sum = n) ∧
      ((Scanner.ofBytes data).forEach visit state).1 = .done n ∧
      (split data opts fun _ => (.accept : Reply ε π)) = .done n ∧
      Settles (fun _ _ _ => (.accept : Reply ε π)) (fun c => c.outcome? = some (.done n))
        (Crew.start (pieces data opts)) := by
  intro n
  have hn : n = (lines data).length := congrArg List.length (Scanner.rest_ofBytes data)
  have hsplit : (split data opts fun _ => (.accept : Reply ε π)) = .done n := by
    rw [hn, split_of_accept]
  refine ⟨?_, ?_, ?_, ?_, hsplit, ?_⟩
  · rw [hn, countLines_eq_length_lines]
  · rw [hn, lineCount_eq_length_lines]
  · intro parts
    rw [hn, sum_lineCount_plan]
  · rw [hn, Scanner.forEach_of_accept haccept, Scanner.remaining_ofBytes]
  · refine (settles_start data opts fun _ _ _ => .accept).mono ?_
    rintro c ⟨-, houtcome⟩
    rw [houtcome]
    exact congrArg some hsplit

/-- Three lines in two pieces, the last of them left open, seen by a visitor that adds
up their bytes. -/
theorem countLines_agrees_on_an_open_tail :
    let data : Bytes := [97, 10, 10, 98]
    let opts : Options := ⟨2, 0, by decide, by decide⟩
    let visit : Visitor Nat Unit Unit := fun size line => (.accept, size + line.length)
    (∀ size line, (visit size line).1 = .accept) ∧
      countLines data opts = 3 ∧
      ((plan data 2).map fun s => lineCount (s.slice data)).sum = 3 ∧
      ((Scanner.ofBytes data).forEach visit 0).1 = .done 3 := by
  intro data opts visit
  have haccept : ∀ size line, (visit size line).1 = .accept := fun _ _ => rfl
  have hrest : (Scanner.ofBytes data).rest.length = 3 := by
    rw [Scanner.rest_ofBytes]
    decide
  obtain ⟨hcount, -, hplan, hscan, -⟩ := countLines_agrees data opts visit 0 haccept
  rw [hrest] at hcount hplan hscan
  exact ⟨haccept, hcount, hplan 2, hscan⟩

end Linewise
