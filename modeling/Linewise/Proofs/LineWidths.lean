import Linewise.Proofs.Decomposition

/-!
# The widths of lines

A line takes up the bytes that it shows and the byte that ends it, except that nothing
ends an open tail.  A stretch of bytes without a newline lies within one line, and the byte
behind the stretch belongs to that line too, whether it ends the line or not.  So such a
stretch is narrower than the longest line.

* `wholeLines` — the lines with the newlines that end them; `flatten_wholeLines` and
  `map_chomp_wholeLines` say that they are the bytes again, and the lines of a scanner;
* `longestLine` — the width of the longest, with `longestLine_le_iff`;
* `length_lt_longestLine` — **a stretch within a line is narrower than the longest line.**
-/

namespace Linewise

/-- The lines of a byte string, each with the newline that ends it. -/
def wholeLines : Bytes → List Bytes
  | [] => []
  | b :: rest =>
      if b = newline then [newline] :: wholeLines rest
      else match wholeLines rest with
        | [] => [[b]]
        | line :: later => (b :: line) :: later

/-- The number of bytes of the longest line, the newline that ends it counted. -/
def longestLine (data : Bytes) : Nat :=
  (wholeLines data).foldr (fun line width => max line.length width) 0

/-- A newline ends the line before it and is a part of that line. -/
theorem wholeLines_append_newline {line : Bytes} (hline : newline ∉ line) (rest : Bytes) :
    wholeLines (line ++ newline :: rest) = (line ++ [newline]) :: wholeLines rest := by
  induction line with
  | nil => simp [wholeLines]
  | cons b line ih =>
      obtain ⟨hb, hrest⟩ := List.ne_and_not_mem_of_not_mem_cons hline
      rw [List.cons_append, wholeLines, if_neg hb.symm, ih hrest]
      rfl

/-- Bytes without a newline are one line, which nothing ends. -/
theorem wholeLines_of_not_mem {tail : Bytes} (htail : newline ∉ tail) (hne : tail ≠ []) :
    wholeLines tail = [tail] := by
  induction tail with
  | nil => exact absurd rfl hne
  | cons b tail ih =>
      obtain ⟨hb, hrest⟩ := List.ne_and_not_mem_of_not_mem_cons htail
      cases tail with
      | nil => rw [wholeLines, if_neg hb.symm, wholeLines]
      | cons c tail => rw [wholeLines, if_neg hb.symm, ih hrest (List.cons_ne_nil c tail)]

/-- The whole lines are the bytes, cut behind each newline. -/
theorem flatten_wholeLines (data : Bytes) : (wholeLines data).flatten = data := by
  induction data with
  | nil => rfl
  | cons b rest ih =>
      by_cases hb : b = newline
      · rw [wholeLines, if_pos hb, List.flatten_cons, ih, hb]
        rfl
      · rw [wholeLines, if_neg hb]
        cases hlines : wholeLines rest with
        | nil =>
            rw [hlines] at ih
            rw [← ih]
            rfl
        | cons line later =>
            rw [hlines] at ih
            rw [← ih]
            rfl

/-- **Without their newlines** they are the lines that a scanner hands out. -/
theorem map_chomp_wholeLines (s : Scanner) : (wholeLines s.remaining).map chomp = s.rest := by
  rw [Scanner.rest_eq]
  induction s using Scanner.walk with
  | none s t h => rw [Scanner.remaining_of_getline_none h]; rfl
  | some s line t h ih =>
      rw [Scanner.lines_remaining_of_getline h, ← ih]
      obtain ⟨hline, hended | ⟨hopen, hne, hnil⟩⟩ := Scanner.remaining_of_getline h
      · rw [hended, wholeLines_append_newline hline, List.map_cons, chomp_concat_newline]
      · have hchomp : chomp line = line := chomp_append_of_not_mem hline hne []
        rw [hopen, hnil, wholeLines_of_not_mem hline hne, List.map_cons, hchomp]
        rfl

/-- The longest line is within a width if all lines are. -/
theorem longestLine_le_iff {data : Bytes} {width : Nat} :
    longestLine data ≤ width ↔ ∀ line ∈ wholeLines data, line.length ≤ width := by
  unfold longestLine
  induction wholeLines data with
  | nil => simp
  | cons line later ih => rw [List.foldr_cons, Nat.max_le, ih, List.forall_mem_cons]

theorem length_le_longestLine {data line : Bytes} (h : line ∈ wholeLines data) :
    line.length ≤ longestLine data :=
  longestLine_le_iff.mp (Nat.le_refl _) line h

/-- A byte more in front makes no line shorter. -/
theorem longestLine_le_cons (b : UInt8) (rest : Bytes) :
    longestLine rest ≤ longestLine (b :: rest) := by
  rw [longestLine_le_iff]
  intro line hline
  by_cases hb : b = newline
  · apply length_le_longestLine
    rw [wholeLines, if_pos hb]
    exact List.mem_cons_of_mem _ hline
  · cases hlines : wholeLines rest with
    | nil =>
        rw [hlines] at hline
        cases hline
    | cons first later =>
        have hwhole : wholeLines (b :: rest) = (b :: first) :: later := by
          rw [wholeLines, if_neg hb, hlines]
        rw [hlines] at hline
        rcases List.mem_cons.mp hline with rfl | hlater
        · -- The byte has become a part of the first line.
          have hfirst : b :: line ∈ wholeLines (b :: rest) := by
            rw [hwhole]
            exact List.mem_cons_self
          exact Nat.le_of_succ_le (length_le_longestLine hfirst)
        · apply length_le_longestLine
          rw [hwhole]
          exact List.mem_cons_of_mem _ hlater

/-- From some byte on, the longest line is no longer than before. -/
theorem longestLine_drop_le (data : Bytes) (count : Nat) :
    longestLine (data.drop count) ≤ longestLine data := by
  induction count generalizing data with
  | zero => exact Nat.le_refl _
  | succ count ih =>
      cases data with
      | nil => exact Nat.le_refl _
      | cons b rest => exact Nat.le_trans (ih rest) (longestLine_le_cons b rest)

/-- The first line goes beyond any stretch without a newline that the bytes begin with. -/
theorem exists_cons_wholeLines {middle : Bytes} (hmiddle : newline ∉ middle) (b : UInt8)
    (back : Bytes) : ∃ line later, wholeLines (middle ++ b :: back) = line :: later ∧
      middle.length < line.length := by
  induction middle with
  | nil =>
      rw [List.nil_append, wholeLines]
      split
      · exact ⟨[newline], _, rfl, Nat.zero_lt_one⟩
      · split
        · exact ⟨[b], [], rfl, Nat.zero_lt_one⟩
        · exact ⟨_, _, rfl, Nat.succ_pos _⟩
  | cons c middle ih =>
      obtain ⟨hc, hrest⟩ := List.ne_and_not_mem_of_not_mem_cons hmiddle
      obtain ⟨line, later, hlines, hlt⟩ := ih hrest
      refine ⟨c :: line, later, ?_, Nat.succ_lt_succ hlt⟩
      rw [List.cons_append, wholeLines, if_neg hc.symm, hlines]

/-- **A stretch within a line** is narrower than the longest line.  It may begin anywhere in
the data, but a byte must follow it. -/
theorem length_lt_longestLine {data : Bytes} {start stop : Nat} (hle : start ≤ stop)
    (hlt : stop < data.length)
    (hplain : ∀ i, start ≤ i → i < stop → data[i]? ≠ some newline) :
    stop - start < longestLine data := by
  let middle := (data.drop start).take (stop - start)
  have hsplit : data.drop start = middle ++ data[stop] :: data.drop (stop + 1) := by
    have hrest : (data.drop start).drop (stop - start) = data.drop stop := by
      rw [List.drop_drop, Nat.add_sub_of_le hle]
    rw [← List.drop_eq_getElem_cons hlt, ← hrest]
    exact (List.take_append_drop _ _).symm
  have hlength : middle.length = stop - start := by
    simp only [middle, List.length_take, List.length_drop]
    omega
  have hmiddle : newline ∉ middle := by
    intro hmem
    obtain ⟨i, hbyte⟩ := List.mem_iff_getElem?.mp hmem
    have hi : i < stop - start := hlength ▸ (List.getElem?_eq_some_iff.mp hbyte).1
    rw [List.getElem?_take_of_lt hi, List.getElem?_drop] at hbyte
    exact hplain (start + i) (by omega) (by omega) hbyte
  -- The byte at `stop` belongs to the line of those before it, be it the newline or not.
  obtain ⟨line, later, hlines, hwide⟩ :=
    exists_cons_wholeLines hmiddle data[stop] (data.drop (stop + 1))
  rw [← hsplit] at hlines
  calc
    stop - start = middle.length := hlength.symm
    _ < line.length := hwide
    _ ≤ longestLine (data.drop start) := length_le_longestLine (by simp [hlines])
    _ ≤ longestLine data := longestLine_drop_le data start

end Linewise
