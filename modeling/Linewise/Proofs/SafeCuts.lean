import Mathlib.Data.List.Basic
import Linewise.Proofs.LineCounts

/-!
# Where a byte string may be cut

A byte string that is cut in two is read in two parts.  Whether the lines of the parts are
the lines of the whole does not depend on what is behind the cut: it is enough, and unless
one part is empty it is needed, that the part before the cut ends its last line.  A cut
anywhere else makes two lines of one, and the number of lines shows it.

* `CutsNoLine` — the cuts in question;
* `lineCount_append` — **what a cut adds to the number of lines**: an open tail that is cut
  off counts once more;
* `CutsNoLine.lines_append`, `cutsNoLine_of_lineCount_append` — a cut between lines is not
  noticed, and any other is;
* `lines_add_up_iff` — the lines add up, and so do their numbers, at these cuts and at no
  others.
-/

namespace Linewise

/-- Between the two parts no line is cut: one of them is empty, or the first ends with a
newline. -/
def CutsNoLine (front back : Bytes) : Prop :=
  front = [] ∨ back = [] ∨ front.getLast? = some newline

instance (front back : Bytes) : Decidable (CutsNoLine front back) :=
  inferInstanceAs (Decidable (_ ∨ _ ∨ _))

/-- There is no open tail where there is no byte, or where a newline comes last. -/
theorem hasOpenTail_eq_false_iff {data : Bytes} :
    hasOpenTail data = false ↔ data = [] ∨ data.getLast? = some newline := by
  cases hlast : data.getLast? with
  | none =>
      have hnil : data = [] := List.getLast?_eq_none_iff.mp hlast
      simp [hnil, hasOpenTail]
  | some b =>
      have hne : data ≠ [] := by
        rintro rfl
        cases hlast
      simp [hasOpenTail_of_getLast? hlast, inLine, hne]

/-- The second part has the tail of the whole, if it is not empty. -/
theorem hasOpenTail_append {back : Bytes} (hback : back ≠ []) (front : Bytes) :
    hasOpenTail (front ++ back) = hasOpenTail back := by
  rw [hasOpenTail, hasOpenTail, List.getLast?_append_of_ne_nil front hback]

/-- The open tail of the part before a cut is the beginning of a line that goes on behind
it, so that line is counted in both parts. -/
theorem lineCount_append {back : Bytes} (hback : back ≠ []) (front : Bytes) :
    lineCount (front ++ back) + (hasOpenTail front).toNat =
      lineCount front + lineCount back := by
  simp only [lineCount, List.count_append, hasOpenTail_append hback]
  omega

/-- **A cut between lines** is not noticed. -/
theorem CutsNoLine.lines_append {front back : Bytes} (h : CutsNoLine front back) :
    lines (front ++ back) = lines front ++ lines back := by
  obtain rfl | rfl | hlast := h
  · rfl
  · simp
  · exact Linewise.lines_append (hasOpenTail_eq_false_iff.mpr (Or.inr hlast)) back

/-- **A cut inside a line** is noticed by the number of lines. -/
theorem cutsNoLine_of_lineCount_append {front back : Bytes}
    (h : lineCount (front ++ back) = lineCount front + lineCount back) :
    CutsNoLine front back := by
  by_cases hback : back = []
  · exact Or.inr (Or.inl hback)
  · have hadd := lineCount_append hback front
    have hclosed : hasOpenTail front = false := by
      rw [← Bool.toNat_eq_zero]
      omega
    obtain hnil | hlast := hasOpenTail_eq_false_iff.mp hclosed
    · exact Or.inl hnil
    · exact Or.inr (Or.inr hlast)

/-- Lines that add up are counted right, whether by cutting them out or not. -/
theorem lineCount_append_of_lines_append {front back : Bytes}
    (h : lines (front ++ back) = lines front ++ lines back) :
    lineCount (front ++ back) = lineCount front + lineCount back := by
  rw [lineCount_eq_length_lines, h, List.length_append, lineCount_eq_length_lines,
    lineCount_eq_length_lines]

/-- **The lines of two parts** are the lines of the whole, and the numbers of their lines
add up to that of the whole, exactly if no line is cut between the parts. -/
theorem lines_add_up_iff (front back : Bytes) :
    ((Scanner.ofBytes (front ++ back)).rest =
        (Scanner.ofBytes front).rest ++ (Scanner.ofBytes back).rest ↔ CutsNoLine front back) ∧
      (lineCount (front ++ back) = lineCount front + lineCount back ↔
        CutsNoLine front back) := by
  simp only [Scanner.rest_ofBytes]
  constructor
  · constructor
    · intro hlines
      exact cutsNoLine_of_lineCount_append (lineCount_append_of_lines_append hlines)
    · exact CutsNoLine.lines_append
  · constructor
    · exact cutsNoLine_of_lineCount_append
    · intro hcut
      exact lineCount_append_of_lines_append hcut.lines_append

end Linewise
