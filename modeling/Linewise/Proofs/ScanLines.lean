import Linewise.Scanner
import Linewise.Proofs.LineCuts

/-!
# A scanner reads lines

`lines` goes over a byte string once, byte by byte.  A scanner takes one line at
a time and keeps an offset.  Both cut in the same places.

* `Scanner.walk` — induction along a scan: a request finds no line, or it takes
  one and the scan goes on from there;
* `Scanner.takes_of_getline` — what a request that takes a line does to the scanner;
  `Scanner.remaining_of_getline` — what it leaves of the bytes;
* `Scanner.foldLines_eq` — every way to combine the remaining lines is a fold over
  `lines` of the remaining bytes;
* `Scanner.rest_ofBytes` — **a fresh scanner hands out the lines of its bytes.**
-/

namespace Linewise

namespace Scanner

/-- **Walking along a scan.**  A property of scanners holds if it holds where a
request finds no line, and if it holds before a line whenever it holds behind it. -/
@[elab_as_elim]
theorem walk {motive : Scanner → Prop}
    (none : ∀ s t, s.getline = (none, t) → motive s)
    (some : ∀ s line t, s.getline = (some line, t) → motive t → motive s)
    (s : Scanner) : motive s := by
  induction hn : s.remaining.length using Nat.strongRecOn generalizing s with
  | ind n ih =>
      cases h : s.getline with
      | mk line t =>
          cases line with
          | none => exact none s t h
          | some line =>
              have hlt : t.remaining.length < n := hn ▸ length_remaining_lt h
              exact some s line t h (ih _ hlt t rfl)

/-- A request finds no line only if there are no bytes to come. -/
theorem remaining_of_getline_none {s t : Scanner} (h : s.getline = (none, t)) :
    s.remaining = [] := by
  unfold getline at h
  split at h
  · rfl
  · rfl
  · simp only at h
    split at h <;> simp at h

/-- A request that takes a line goes past the bytes up to a newline and past the
newline, or it goes past an open tail. -/
inductive Takes : Scanner → Bytes → Scanner → Prop
  | ended {offset : Nat} {line later : Bytes} (plain : newline ∉ line) :
      Takes (reading offset (line ++ newline :: later)) line
        (reading (offset + line.length + 1) later)
  | unended {offset : Nat} {line : Bytes} (plain : newline ∉ line) (nonempty : line ≠ []) :
      Takes (reading offset line) line (reading (offset + line.length) [])

/-- A request that finds a line takes it from the front. -/
theorem takes_of_getline {s t : Scanner} {line : Bytes} (h : s.getline = (some line, t)) :
    Takes s line t := by
  unfold getline at h
  split at h
  · cases h
  · cases h
  · rename_i offset b bs
    have hplain := newline_not_mem_takeWhile (b :: bs)
    simp only at h
    split at h
    · rename_i hdrop
      cases h
      have hall : (b :: bs).takeWhile inLine = b :: bs := by
        simpa [hdrop] using List.takeWhile_append_dropWhile (p := inLine) (l := b :: bs)
      rw [hall] at hplain ⊢
      exact Takes.unended hplain (List.cons_ne_nil b bs)
    · rename_i c later hdrop
      cases h
      have hsplit := eq_takeWhile_append_newline hdrop
      generalize (b :: bs).takeWhile inLine = line at hplain hsplit ⊢
      rw [hsplit]
      exact Takes.ended hplain

/-- A scanner that has just taken a line is not retired, even if it was the last. -/
theorem position_of_getline {s t : Scanner} {line : Bytes}
    (h : s.getline = (some line, t)) : ∃ offset, t.position = some offset := by
  cases takes_of_getline h with
  | ended plain => exact ⟨_, rfl⟩
  | unended plain nonempty => exact ⟨_, rfl⟩

/-- What remains loses a line and the newline that ends it, or a line that is all
there is. -/
theorem remaining_of_getline {s t : Scanner} {line : Bytes}
    (h : s.getline = (some line, t)) :
    newline ∉ line ∧
      (s.remaining = line ++ newline :: t.remaining ∨
        (s.remaining = line ∧ line ≠ [] ∧ t.remaining = [])) := by
  cases takes_of_getline h with
  | ended plain => exact ⟨plain, Or.inl rfl⟩
  | unended plain nonempty => exact ⟨plain, Or.inr ⟨rfl, nonempty, rfl⟩⟩

/-- The line that is taken is the first of the lines to come. -/
theorem lines_remaining_of_getline {s t : Scanner} {line : Bytes}
    (h : s.getline = (some line, t)) :
    lines s.remaining = line :: lines t.remaining := by
  obtain ⟨hline, hended | ⟨hopen, hne, hnil⟩⟩ := remaining_of_getline h
  · rw [hended, lines_append_newline hline]
  · rw [hopen, hnil, lines_of_not_mem hline hne]
    rfl

/-- A fold without a line to come is at its end. -/
theorem foldLines_of_none {σ : Type} (f : σ → Bytes → σ) (acc : σ) {s t : Scanner}
    (h : s.getline = (none, t)) : s.foldLines f acc = acc := by
  rw [foldLines]
  split
  · rfl
  · simp_all

/-- A fold with a line goes on behind it. -/
theorem foldLines_of_some {σ : Type} (f : σ → Bytes → σ) (acc : σ) {s t : Scanner}
    {line : Bytes} (h : s.getline = (some line, t)) :
    s.foldLines f acc = t.foldLines f (f acc line) := by
  rw [foldLines]
  split
  · simp_all
  · rename_i line' t' h'
    cases h.symm.trans h'
    rfl

/-- **Combining the remaining lines is a fold over them.** -/
theorem foldLines_eq {σ : Type} (f : σ → Bytes → σ) (acc : σ) (s : Scanner) :
    s.foldLines f acc = (lines s.remaining).foldl f acc := by
  induction s using walk generalizing acc with
  | none s t h =>
      rw [foldLines_of_none f acc h, remaining_of_getline_none h]
      rfl
  | some s line t h ih =>
      rw [foldLines_of_some f acc h, lines_remaining_of_getline h, List.foldl_cons, ih]

/-- The lines handed out from now on are the lines of the bytes to come. -/
theorem rest_eq (s : Scanner) : s.rest = lines s.remaining := by
  rw [rest, foldLines_eq, List.foldl_flip_cons_eq_append', List.append_nil,
    List.reverse_reverse]

@[simp] theorem remaining_ofBytes (data : Bytes) : (ofBytes data).remaining = data := by
  cases data with
  | nil => rfl
  | cons b bs => rfl

/-- **A fresh scanner hands out the lines of its bytes.** -/
theorem rest_ofBytes (data : Bytes) : (ofBytes data).rest = lines data := by
  rw [rest_eq, remaining_ofBytes]

end Scanner

end Linewise
