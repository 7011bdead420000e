import Linewise.Bytes

/-!
# Lines

A line is a stretch of bytes without a newline.  Each newline of a byte string
ends one line, and a tail that no newline ends is one more line.  So `"a\nb"` and
`"a\nb\n"` hold the same two lines, and `"\n"` holds one, which is empty.

* `lines` — the lines of a byte string, by recursion on its bytes;
* `terminated` — the byte string that ends each of the given lines;
* `lines_terminated_append` — ending a line and reading it again gives it back,
  whatever follows: the law from which the others come;
* `length_lines_le` — there are no more lines than bytes;
* `lineCount` — how many lines there are, without cutting any of them out;
* `lastBreak` — where the line begun last starts, found in one pass;
  `lastBreak_eq` says that this is the length of what is left when that line is
  taken off.
-/

namespace Linewise

/-- Whether a byte belongs to a line, and does not end it. -/
def inLine (b : UInt8) : Bool := b != newline

/-- The lines of a byte string, each without the newline that ends it. -/
def lines : Bytes → List Bytes
  | [] => []
  | b :: rest =>
      if b = newline then [] :: lines rest
      else match lines rest with
        | [] => [[b]]
        | line :: later => (b :: line) :: later

/-- The byte string that ends each of the given lines by a newline. -/
def terminated (ls : List Bytes) : Bytes :=
  ls.flatMap (· ++ [newline])

/-- Whether the last line is one that no newline ends. -/
def hasOpenTail (data : Bytes) : Bool :=
  match data.getLast? with
  | none => false
  | some b => inLine b

/-- The number of lines: one for each newline, and one for an open tail. -/
def lineCount (data : Bytes) : Nat :=
  data.count newline + (hasOpenTail data).toNat

/-- The length of the longest beginning of the first `size` bytes that ends with
a newline, zero if there is none. -/
def lastBreak (size : Nat) (bytes : Bytes) : Nat :=
  loop size bytes 0 0
where
  /-- Of `seen` bytes so far the first `found` lie up to a newline. -/
  loop : Nat → Bytes → Nat → Nat → Nat
    | 0, _, _, found => found
    | _ + 1, [], _, found => found
    | size + 1, b :: rest, seen, found =>
        loop size rest (seen + 1) (if b = newline then seen + 1 else found)

@[simp] theorem lines_nil : lines [] = [] := rfl

@[simp] theorem lines_newline_cons (rest : Bytes) :
    lines (newline :: rest) = [] :: lines rest := by
  simp [lines]

/-- A newline ends the line before it, whatever comes after. -/
theorem lines_append_newline {line : Bytes} (hline : newline ∉ line) (rest : Bytes) :
    lines (line ++ newline :: rest) = line :: lines rest := by
  induction line with
  | nil => simp
  | cons b line ih =>
      have hb : b ≠ newline := fun h => hline (h ▸ List.mem_cons_self)
      have hrest : newline ∉ line := fun h => hline (List.mem_cons_of_mem _ h)
      simp [lines, hb, ih hrest]

/-- Bytes without a newline are one line. -/
theorem lines_of_not_mem {tail : Bytes} (htail : newline ∉ tail) (hne : tail ≠ []) :
    lines tail = [tail] := by
  induction tail with
  | nil => exact absurd rfl hne
  | cons b tail ih =>
      have hb : b ≠ newline := fun h => htail (h ▸ List.mem_cons_self)
      have hrest : newline ∉ tail := fun h => htail (List.mem_cons_of_mem _ h)
      cases tail with
      | nil => simp [lines, hb]
      | cons c tail => rw [lines, ih hrest (by simp)]; simp [hb]

/-- **There are no more lines than bytes**: each line has its newline, or is a tail that is not
empty. -/
theorem length_lines_le (data : Bytes) : (lines data).length ≤ data.length := by
  induction data with
  | nil => exact Nat.le_refl 0
  | cons b rest ih =>
      by_cases hb : b = newline
      · rw [hb, lines_newline_cons, List.length_cons, List.length_cons]
        exact Nat.succ_le_succ ih
      · rw [lines, if_neg hb, List.length_cons]
        cases hlines : lines rest with
        | nil => simp
        | cons line later =>
            rw [hlines] at ih
            exact Nat.le_succ_of_le ih

/-- Lines may be ended in two goes. -/
theorem terminated_append (front back : List Bytes) :
    terminated (front ++ back) = terminated front ++ terminated back := by
  simp [terminated]

/-- The first line comes first, with its newline. -/
theorem terminated_cons (line : Bytes) (ls : List Bytes) :
    terminated (line :: ls) = line ++ newline :: terminated ls := by
  simp [terminated]

/-- The last line comes last, with its newline. -/
theorem terminated_concat (ls : List Bytes) (last : Bytes) :
    terminated (ls ++ [last]) = terminated ls ++ last ++ [newline] := by
  simp [terminated]

/-- Groups of lines are ended group by group. -/
theorem terminated_flatMap {α : Type} (xs : List α) (f : α → List Bytes) :
    terminated (xs.flatMap f) = xs.flatMap fun x => terminated (f x) := by
  simp [terminated, List.flatMap_assoc]

/-- **Ended lines are read back.**  Whatever follows them is read on its own. -/
theorem lines_terminated_append {ls : List Bytes} (hls : ∀ l ∈ ls, newline ∉ l)
    (rest : Bytes) : lines (terminated ls ++ rest) = ls ++ lines rest := by
  induction ls with
  | nil => simp [terminated]
  | cons line ls ih =>
      rw [terminated_cons, List.append_assoc, List.cons_append,
        lines_append_newline (hls line List.mem_cons_self),
        ih fun l hl => hls l (List.mem_cons_of_mem _ hl)]
      rfl

/-- The pass finds the end of the last ended line, and keeps what was found before
if there is none. -/
private theorem lastBreak_loop_eq (bytes : Bytes) :
    ∀ size seen found, lastBreak.loop size bytes seen found =
      match ((bytes.take size).reverse.dropWhile inLine).length with
      | 0 => found
      | width + 1 => seen + (width + 1) := by
  induction bytes with
  | nil =>
      intro size seen found
      cases size <;> simp [lastBreak.loop]
  | cons b rest ih =>
      intro size seen found
      cases size with
      | zero => simp [lastBreak.loop]
      | succ size =>
          rw [lastBreak.loop, ih, List.take_succ_cons, List.reverse_cons, List.dropWhile_append]
          cases hdrop : (rest.take size).reverse.dropWhile inLine with
          | nil =>
              by_cases hb : b = newline
              · simp [inLine, hb, List.dropWhile]
              · have hin : inLine b = true := by simpa [inLine] using hb
                simp [List.dropWhile, hin, hb]
          | cons c later =>
              simp only [List.length_cons, List.isEmpty_cons, Bool.false_eq_true, if_false,
                List.length_append, List.length_nil]
              rw [Nat.add_assoc, Nat.add_comm 1]

/-- **The last break** is where the line begun last starts. -/
theorem lastBreak_eq (size : Nat) (bytes : Bytes) :
    lastBreak size bytes = ((bytes.take size).reverse.dropWhile inLine).length := by
  rw [lastBreak, lastBreak_loop_eq]
  cases ((bytes.take size).reverse.dropWhile inLine).length with
  | zero => rfl
  | succ width => exact Nat.zero_add (width + 1)

end Linewise
