import Mathlib.Data.List.TakeWhile
import Linewise.Line

/-!
# Cuts between lines

A byte string may be cut in two without cutting a line if the first part has no
open tail.  Then the lines of the two parts are the lines of the whole.

* `lines_append` — **the lines on both sides of such a cut are all the lines**;
* `BehindNewline` — the same property of an offset.
-/

namespace Linewise

/-- The bytes up to the first newline hold none. -/
theorem newline_not_mem_takeWhile (bytes : Bytes) : newline ∉ bytes.takeWhile inLine := by
  intro hmem
  have hin := List.mem_takeWhile_imp hmem
  simp [inLine] at hin

/-- What ends these bytes is a newline. -/
theorem eq_newline_of_dropWhile {bytes later : Bytes} {b : UInt8}
    (h : bytes.dropWhile inLine = b :: later) : b = newline := by
  have hhead := List.head?_dropWhile_not inLine bytes
  rw [h] at hhead
  simpa [inLine] using hhead

/-- A line is followed by a newline, wherever something follows it. -/
theorem eq_takeWhile_append_newline {bytes later : Bytes} {b : UInt8}
    (h : bytes.dropWhile inLine = b :: later) :
    bytes = bytes.takeWhile inLine ++ newline :: later := by
  calc
    bytes = bytes.takeWhile inLine ++ bytes.dropWhile inLine :=
      List.takeWhile_append_dropWhile.symm
    _ = bytes.takeWhile inLine ++ newline :: later := by rw [h, eq_newline_of_dropWhile h]

/-- The last byte tells whether there is an open tail. -/
theorem hasOpenTail_of_getLast? {data : Bytes} {b : UInt8} (h : data.getLast? = some b) :
    hasOpenTail data = inLine b := by
  rw [hasOpenTail, h]

/-- In front of other bytes, a byte has no say in that. -/
theorem hasOpenTail_cons_cons (b c : UInt8) (rest : Bytes) :
    hasOpenTail (b :: c :: rest) = hasOpenTail (c :: rest) := by
  rw [hasOpenTail, hasOpenTail, List.getLast?_cons_cons]

/-- Some bytes make some line. -/
theorem lines_ne_nil {data : Bytes} (h : data ≠ []) : lines data ≠ [] := by
  cases data with
  | nil => exact absurd rfl h
  | cons b rest =>
      rw [lines]
      split
      · exact List.cons_ne_nil _ _
      · split <;> exact List.cons_ne_nil _ _

/-- A byte that ends no line is the first of the line behind it. -/
theorem lines_cons_of_ne {b : UInt8} {rest line : Bytes} {later : List Bytes}
    (hb : b ≠ newline) (hrest : lines rest = line :: later) :
    lines (b :: rest) = (b :: line) :: later := by
  rw [lines, if_neg hb, hrest]

/-- **The lines on both sides of a cut.**  Behind a part without an open tail a new
line begins, so what follows is read on its own. -/
theorem lines_append {front : Bytes} (h : hasOpenTail front = false) (back : Bytes) :
    lines (front ++ back) = lines front ++ lines back := by
  induction front with
  | nil => rfl
  | cons b front ih =>
      cases front with
      | nil =>
          -- The last byte of the front is the newline in front of the cut.
          have hb : b = newline := by
            rw [hasOpenTail_of_getLast? List.getLast?_singleton] at h
            simpa [inLine] using h
          simp [hb]
      | cons c front =>
          rw [hasOpenTail_cons_cons] at h
          by_cases hb : b = newline
          · simp only [hb, List.cons_append, lines_newline_cons, List.cons.injEq, true_and]
            exact ih h
          · have hsplit := ih h
            have hne : lines (c :: front) ≠ [] := lines_ne_nil (List.cons_ne_nil c front)
            obtain ⟨line, later, hlines⟩ := List.exists_cons_of_ne_nil hne
            have hwhole : lines (c :: front ++ back) = line :: (later ++ lines back) := by
              rw [hsplit, hlines, List.cons_append]
            rw [List.cons_append, lines_cons_of_ne hb hwhole, lines_cons_of_ne hb hlines,
              List.cons_append]

/-- The byte before an offset is a newline. -/
def BehindNewline (data : Bytes) (offset : Nat) : Prop :=
  0 < offset ∧ data[offset - 1]? = some newline

instance (data : Bytes) (offset : Nat) : Decidable (BehindNewline data offset) :=
  inferInstanceAs (Decidable (_ ∧ _))

/-- An offset behind a newline lies within the data. -/
theorem BehindNewline.le_length {data : Bytes} {offset : Nat}
    (h : BehindNewline data offset) : offset ≤ data.length := by
  obtain ⟨hpos, hbyte⟩ := h
  have hlt := (List.getElem?_eq_some_iff.mp hbyte).1
  omega

end Linewise
