import Mathlib.Data.List.Basic
import Linewise.Proofs.ScanLines

/-!
# Bytes from lines, and lines from bytes

Lines can be written down in two ways: each of them ended by a newline, or the last
one left open.  An open line needs a byte, for otherwise nothing would show that it is
there.  `Decomposes` says of a list of lines that a byte string is one of the two, and
does so without a scan.

* `Decomposes.of_scanner` — what a scanner hands out decomposes what it has before it;
* `Decomposes.lines_eq` — no other list does;
* `Decomposes.joined_eq` — the lines with newlines between them are the bytes without
  the newline at their end, if there is one;
* `rest_eq_iff_decomposes` — **a scanner computes the one decomposition there is.**
-/

namespace Linewise

/-- The byte string that has a newline between each two of the given lines. -/
def joined (ls : List Bytes) : Bytes :=
  [newline].intercalate ls

/-- A byte string without the newline at its end, if there is one. -/
def chomp (data : Bytes) : Bytes :=
  if data.getLast? = some newline then data.dropLast else data

/-- The byte string `data` is the lines `ls` written down: all of them ended, or all
but the last. -/
inductive Decomposes : Bytes → List Bytes → Prop
  | ended {ls : List Bytes} (plain : ∀ l ∈ ls, newline ∉ l) : Decomposes (terminated ls) ls
  /-- The last line, which has a byte, lacks its newline. -/
  | unended {data last : Bytes} {ls : List Bytes} (plain : ∀ l ∈ ls, newline ∉ l)
      (tail : ls.getLast? = some last) (nonempty : last ≠ [])
      (written : data ++ [newline] = terminated ls) : Decomposes data ls

/-- Joining leaves out the last newline, and no other. -/
theorem joined_append_newline {ls : List Bytes} (hne : ls ≠ []) :
    joined ls ++ [newline] = terminated ls := by
  induction ls with
  | nil => exact absurd rfl hne
  | cons line ls ih =>
      cases ls with
      | nil => simp [joined, terminated]
      | cons next ls =>
          have hrest := ih (List.cons_ne_nil next ls)
          rw [terminated_cons, ← hrest]
          simp [joined, List.intercalate]

/-- With newlines between them, the last line stands behind those that are ended. -/
theorem joined_concat (ls : List Bytes) (last : Bytes) :
    joined (ls ++ [last]) = terminated ls ++ last := by
  have hne : ls ++ [last] ≠ [] := by simp
  have hended : joined (ls ++ [last]) ++ [newline] = terminated ls ++ last ++ [newline] := by
    rw [joined_append_newline hne, terminated_concat]
  exact List.append_cancel_right hended

theorem chomp_concat_newline (data : Bytes) : chomp (data ++ [newline]) = data := by
  simp [chomp]

/-- An open tail is left as it is. -/
theorem chomp_append_of_not_mem {last : Bytes} (hplain : newline ∉ last) (hne : last ≠ [])
    (front : Bytes) : chomp (front ++ last) = front ++ last := by
  have hlast : (front ++ last).getLast? ≠ some newline := by
    rw [List.getLast?_append_of_ne_nil front hne]
    intro hend
    exact hplain (List.mem_of_getLast? hend)
  rw [chomp, if_neg hlast]

namespace Decomposes

variable {data line : Bytes} {ls : List Bytes}

/-- No line holds a newline. -/
theorem plain (h : Decomposes data ls) : ∀ l ∈ ls, newline ∉ l := by
  cases h with
  | ended plain => exact plain
  | unended plain tail nonempty written => exact plain

/-- A line more in front. -/
theorem cons (hline : newline ∉ line) (h : Decomposes data ls) :
    Decomposes (line ++ newline :: data) (line :: ls) := by
  have hplain : (∀ l ∈ ls, newline ∉ l) → ∀ l ∈ line :: ls, newline ∉ l := by
    intro hls l hl
    rcases List.mem_cons.mp hl with rfl | hmem
    · exact hline
    · exact hls l hmem
  cases h with
  | ended plain =>
      rw [← terminated_cons]
      exact ended (hplain plain)
  | @unended data last ls plain tail nonempty written =>
      refine unended (hplain plain) ?_ nonempty ?_
      · rw [List.getLast?_cons, tail]
        rfl
      · rw [terminated_cons, ← written]
        simp

/-- **What a scanner hands out** decomposes what it has before it.  The induction is
along the scan: a request takes a line and its newline off the front, or it takes an
open tail and leaves nothing. -/
theorem of_scanner (s : Scanner) : Decomposes s.remaining s.rest := by
  rw [Scanner.rest_eq]
  induction s using Scanner.walk with
  | none s t h =>
      have hnone : ∀ l ∈ ([] : List Bytes), newline ∉ l := by simp
      rw [Scanner.remaining_of_getline_none h]
      exact ended hnone
  | some s line t h ih =>
      rw [Scanner.lines_remaining_of_getline h]
      obtain ⟨hline, hended | ⟨hopen, hne, hnil⟩⟩ := Scanner.remaining_of_getline h
      · rw [hended]
        exact cons hline ih
      · rw [hopen, hnil]
        refine unended ?_ rfl hne ?_
        · intro l hl
          rw [List.mem_singleton.mp hl]
          exact hline
        · simp [terminated]

/-- The bytes of a decomposition whose last line is left open. -/
theorem eq_joined (hne : ls ≠ []) (written : data ++ [newline] = terminated ls) :
    data = joined ls := by
  rw [← joined_append_newline hne] at written
  exact List.append_cancel_right written

/-- **No other list** decomposes the bytes. -/
theorem lines_eq (h : Decomposes data ls) : lines data = ls := by
  cases h with
  | ended plain =>
      have hlines := lines_terminated_append plain []
      simpa using hlines
  | @unended data last ls plain tail nonempty written =>
      obtain ⟨before, rfl⟩ := List.getLast?_eq_some_iff.mp tail
      have hlast : newline ∉ last := plain last (by simp)
      have hbefore : ∀ l ∈ before, newline ∉ l := fun l hl =>
        plain l (List.mem_append_left [last] hl)
      rw [eq_joined (by simp) written, joined_concat, lines_terminated_append hbefore,
        lines_of_not_mem hlast nonempty]

/-- **The lines, joined,** are the bytes without one newline at their end. -/
theorem joined_eq (h : Decomposes data ls) : joined ls = chomp data := by
  cases h with
  | ended plain =>
      by_cases hne : ls = []
      · rw [hne]
        rfl
      · rw [← joined_append_newline hne, chomp_concat_newline]
  | @unended data last ls plain tail nonempty written =>
      obtain ⟨before, rfl⟩ := List.getLast?_eq_some_iff.mp tail
      have hlast : newline ∉ last := plain last (by simp)
      rw [eq_joined (by simp) written, joined_concat,
        chomp_append_of_not_mem hlast nonempty]

end Decomposes

/-- **A scanner computes the one decomposition there is.**  So what it hands out can be
joined to the bytes again, up to one newline at their end, and lines that are written
down in either way are handed out as they were. -/
theorem rest_eq_iff_decomposes (data : Bytes) (ls : List Bytes) :
    ((Scanner.ofBytes data).rest = ls ↔ Decomposes data ls) ∧
      joined (Scanner.ofBytes data).rest = chomp data ∧
      ((∀ l ∈ ls, newline ∉ l) →
        (Scanner.ofBytes (terminated ls)).rest = ls ∧
        ∀ last, ls.getLast? = some last → last ≠ [] →
          (Scanner.ofBytes (joined ls)).rest = ls) := by
  have hscan : ∀ bytes, Decomposes bytes (Scanner.ofBytes bytes).rest := by
    intro bytes
    have h := Decomposes.of_scanner (Scanner.ofBytes bytes)
    rwa [Scanner.remaining_ofBytes] at h
  have hunique : ∀ {bytes}, Decomposes bytes ls → (Scanner.ofBytes bytes).rest = ls := by
    intro bytes h
    rw [Scanner.rest_ofBytes, h.lines_eq]
  refine ⟨⟨fun h => h ▸ hscan data, hunique⟩, (hscan data).joined_eq, ?_⟩
  intro hplain
  refine ⟨hunique (Decomposes.ended hplain), ?_⟩
  intro last htail hnonempty
  have hne : ls ≠ [] := by
    rintro rfl
    cases htail
  exact hunique (Decomposes.unended hplain htail hnonempty (joined_append_newline hne))

/-- Three lines, the second of them empty and the last left open. -/
theorem rest_eq_of_blank_line_inside :
    let ls : List Bytes := [[97], [], [98, 99]]
    (∀ l ∈ ls, newline ∉ l) ∧ ls.getLast? = some [98, 99] ∧ ([98, 99] : Bytes) ≠ [] ∧
      (Scanner.ofBytes (terminated ls)).rest = ls ∧
      (Scanner.ofBytes (joined ls)).rest = ls ∧
      Decomposes [97, 10, 10, 98, 99] ls := by
  intro ls
  have hplain : ∀ l ∈ ls, newline ∉ l := by decide
  obtain ⟨hiff, -, hwritten⟩ := rest_eq_iff_decomposes [97, 10, 10, 98, 99] ls
  obtain ⟨hended, hopen⟩ := hwritten hplain
  have hjoined := hopen [98, 99] rfl (by decide)
  exact ⟨hplain, rfl, by decide, hended, hjoined, hiff.mp hjoined⟩

end Linewise
