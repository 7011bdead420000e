import Linewise.Proofs.VisitCourse

/-!
# The cursor of a scan

A scan stops only where no line is cut in two: at the start, behind a newline, or at
the end.  So its offset says all about it, and a scan that is put aside can be taken up
again from the offset alone.

* `IsCut` — such an offset;
* `Scanner.Over` — a scanner that stands at one, with the bytes from there on before
  it; `Scanner.Over.getline`, `Scanner.Over.forEach` — **a request keeps it, and so does a
  visit**, however it ends;
* `Scanner.Over.resume_position` — such a scanner is given back by its offset.
-/

namespace Linewise

/-- An offset at which no line is cut in two: either end of the bytes, or an offset
behind a newline. -/
def IsCut (data : Bytes) (offset : Nat) : Prop :=
  offset = 0 ∨ offset = data.length ∨ BehindNewline data offset

/-- A cut lies within the data. -/
theorem IsCut.le_length {data : Bytes} {offset : Nat} (h : IsCut data offset) :
    offset ≤ data.length := by
  obtain rfl | rfl | hbehind := h
  · exact Nat.zero_le _
  · exact Nat.le_refl _
  · exact hbehind.le_length

namespace Scanner

/-- The scanner goes over `data`: it is retired, or it stands at a cut and has the bytes
from there on before it. -/
inductive Over (data : Bytes) : Scanner → Prop
  | reading {offset : Nat} {unread : Bytes} (rest : unread = data.drop offset)
      (cut : IsCut data offset) : Over data (.reading offset unread)
  | retired : Over data .retired

/-- A fresh scanner is over its bytes. -/
theorem over_ofBytes (data : Bytes) : Over data (ofBytes data) := by
  cases data with
  | nil => exact Over.retired
  | cons b bs => exact Over.reading rfl (Or.inl rfl)

namespace Over

variable {data : Bytes} {s : Scanner}

/-- **A request moves the scanner to the next cut**, or retires it. -/
theorem getline (h : Over data s) : Over data s.getline.2 := by
  cases hget : s.getline with
  | mk line t =>
      cases line with
      | none =>
          rw [retired_of_getline_none hget]
          exact Over.retired
      | some line =>
          cases takes_of_getline hget with
          | @ended offset line later plain =>
              cases h with
              | reading rest cut =>
                  -- The newline that ended the line is the byte before the new offset.
                  have hbyte : data[offset + line.length]? = some newline := by
                    rw [← List.getElem?_drop, ← rest]
                    simp
                  refine Over.reading ?_ (Or.inr (Or.inr ⟨by omega, hbyte⟩))
                  calc
                    later = (line ++ newline :: later).drop (line.length + 1) := by simp
                    _ = data.drop (offset + line.length + 1) := by
                      rw [rest, List.drop_drop, Nat.add_assoc]
          | @unended offset line plain nonempty =>
              cases h with
              | reading rest cut =>
                  have hend : offset + line.length = data.length := by
                    have hle := cut.le_length
                    rw [rest, List.length_drop]
                    omega
                  refine Over.reading ?_ (Or.inr (Or.inl hend))
                  rw [hend, List.drop_length]

/-- **A scanner is given back by its offset.** -/
theorem resume_position (h : Over data s) : resume data s.position = s := by
  cases h with
  | reading rest cut => rw [rest]; rfl
  | retired => rfl

/-- **Where the scanner stands**, unless it is retired. -/
theorem place (h : Over data s) :
    s.position = none ∨ ∃ offset, s.position = some offset ∧ offset ≤ data.length ∧
      s.remaining = data.drop offset ∧ IsCut data offset := by
  cases h with
  | @reading offset unread rest cut => exact Or.inr ⟨offset, rfl, cut.le_length, rest, cut⟩
  | retired => exact Or.inl rfl

end Over

/-- A visit keeps the scanner over its data. -/
theorem Over.forEach {σ ε π : Type} {data : Bytes} {s : Scanner} (h : Over data s)
    (visit : Visitor σ ε π) (state : σ) : Over data (s.forEach visit state).2.2 :=
  forEach_invariant (fun _ => Over.getline) visit state h

end Scanner

end Linewise
