import Mathlib.Order.Monotone.Basic
import Linewise.Plan
import Linewise.Proofs.LineCuts

/-!
# Boundaries

`boundary` says where a division point cuts by itself: behind the last newline up to it.
The planner searches for that newline from its last cut only, and does not search at all
for a division point before that cut.  Neither makes a difference.  What it can find there
lies at the boundary or, if the boundary is not behind the last cut, nowhere.

* `take_eq_ended_append` — the bytes up to a division point are ended lines and the
  beginning of one more;
* `boundary_eq_iff` — **a boundary in terms of the bytes**;
* `le_boundary`, `boundary_mono` — no newline is passed over, so the boundaries are in the
  order of their division points;
* `lastBreak_drop` — **a search from any offset on** finds the boundary or nothing.
-/

namespace Linewise

variable {data : Bytes} {target cut : Nat}

/-- **Up to a division point** there are ended lines and the beginning of one more, and
the boundary lies between the two. -/
theorem take_eq_ended_append (data : Bytes) (target : Nat) :
    ∃ ended begun, data.take (target + 1) = ended ++ begun ∧
      ended.length = boundary data target ∧ hasOpenTail ended = false ∧ newline ∉ begun := by
  let window := (data.take (target + 1)).reverse
  refine ⟨(window.dropWhile inLine).reverse, (window.takeWhile inLine).reverse, ?_, ?_, ?_, ?_⟩
  · rw [← List.reverse_append, List.takeWhile_append_dropWhile]
    simp [window]
  · rw [List.length_reverse]
    rfl
  · cases hdrop : window.dropWhile inLine with
    | nil => rfl
    | cons b later =>
        have hlast : (b :: later).reverse.getLast? = some newline := by
          rw [List.getLast?_reverse, List.head?_cons, eq_newline_of_dropWhile hdrop]
        rw [hasOpenTail_of_getLast? hlast]
        decide
  · rw [List.mem_reverse]
    exact newline_not_mem_takeWhile window

/-- A boundary lies at most one byte behind its target, and within the data. -/
theorem boundary_le_min (data : Bytes) (target : Nat) :
    boundary data target ≤ min (target + 1) data.length := by
  obtain ⟨ended, begun, htake, hlen, -⟩ := take_eq_ended_append data target
  have hwhole := congrArg List.length htake
  rw [List.length_take, List.length_append] at hwhole
  omega

theorem boundary_le (data : Bytes) (target : Nat) : boundary data target ≤ target + 1 :=
  Nat.le_trans (boundary_le_min data target) (Nat.min_le_left _ _)

theorem boundary_le_length (data : Bytes) (target : Nat) :
    boundary data target ≤ data.length :=
  Nat.le_trans (boundary_le_min data target) (Nat.min_le_right _ _)

/-- The line begun at the boundary goes on up to the division point. -/
theorem not_newline_of_boundary_le {i : Nat} (hlow : boundary data target ≤ i)
    (hup : i ≤ target) : data[i]? ≠ some newline := by
  obtain ⟨ended, begun, htake, hlen, -, hbegun⟩ := take_eq_ended_append data target
  intro hbyte
  have hat : data[i]? = begun[i - ended.length]? := by
    rw [← List.getElem?_take_of_lt (by omega : i < target + 1), htake,
      List.getElem?_append_right (by omega)]
  rw [hat] at hbyte
  exact hbegun (List.mem_of_getElem? hbyte)

/-- A boundary that is not the beginning stands behind a newline. -/
theorem behindNewline_boundary (h : 0 < boundary data target) :
    BehindNewline data (boundary data target) := by
  obtain ⟨ended, begun, htake, hlen, hended, -⟩ := take_eq_ended_append data target
  have hle := boundary_le data target
  cases hlast : ended.getLast? with
  | none =>
      rw [List.getLast?_eq_none_iff] at hlast
      rw [hlast] at hlen
      simp at hlen
      omega
  | some b =>
      have hb : b = newline := by
        rw [hasOpenTail_of_getLast? hlast] at hended
        simpa [inLine] using hended
      refine ⟨h, ?_⟩
      have hat : data[boundary data target - 1]? = ended[ended.length - 1]? := by
        rw [← List.getElem?_take_of_lt (by omega : boundary data target - 1 < target + 1),
          htake, List.getElem?_append_left (by omega), hlen]
      rw [hat, ← List.getLast?_eq_getElem?, hlast, hb]

/-- A boundary is behind every newline up to its division point. -/
theorem le_boundary (hcut : BehindNewline data cut) (hle : cut ≤ target + 1) :
    cut ≤ boundary data target := by
  by_contra hlt
  obtain ⟨hpos, hbyte⟩ := hcut
  have hlow : boundary data target ≤ cut - 1 := by omega
  exact not_newline_of_boundary_le hlow (by omega) hbyte

/-- **A boundary in terms of the bytes.**  It lies one past the last newline up to the
division point, and at the first offset if there is none. -/
theorem boundary_eq_iff : boundary data target = cut ↔
    (cut = 0 ∨ BehindNewline data cut) ∧ cut ≤ target + 1 ∧
      ∀ i, cut ≤ i → i ≤ target → data[i]? ≠ some newline := by
  constructor
  · rintro rfl
    refine ⟨?_, boundary_le data target, fun i => not_newline_of_boundary_le⟩
    rcases Nat.eq_zero_or_pos (boundary data target) with hzero | hpos
    · exact Or.inl hzero
    · exact Or.inr (behindNewline_boundary hpos)
  · rintro ⟨hcut, hle, hnone⟩
    have hlow : cut ≤ boundary data target := by
      rcases hcut with rfl | hbehind
      · exact Nat.zero_le _
      · exact le_boundary hbehind hle
    have hup : ¬ cut < boundary data target := by
      intro hlt
      -- The newline before the boundary would be one that is not in the bytes.
      have hbound := boundary_le data target
      have hpos : 0 < boundary data target := by omega
      exact hnone (boundary data target - 1) (by omega) (by omega)
        (behindNewline_boundary hpos).2
    omega

/-- Division points further to the right do not cut further to the left. -/
theorem boundary_mono (data : Bytes) : Monotone (boundary data) := by
  intro early late hle
  rcases Nat.eq_zero_or_pos (boundary data early) with hzero | hpos
  · rw [hzero]
    exact Nat.zero_le _
  · have hbound := boundary_le data early
    exact le_boundary (behindNewline_boundary hpos) (by omega)

/-- **A search from any offset on** finds the boundary, or nothing if the boundary is not
behind that offset. -/
theorem lastBreak_drop (data : Bytes) (start target : Nat) :
    lastBreak (target + 1 - start) (data.drop start) = boundary data target - start := by
  rw [lastBreak_eq, boundary, ← List.drop_take]
  generalize data.take (target + 1) = bytes
  have hsplit : bytes.reverse = (bytes.drop start).reverse ++ (bytes.take start).reverse := by
    rw [← List.reverse_append, List.take_append_drop]
  rw [hsplit, List.dropWhile_append]
  split
  · next hempty =>
      -- Nothing is found, so the boundary lies among the bytes before the offset.
      have hle := ((bytes.take start).reverse.dropWhile_suffix inLine).length_le
      rw [List.length_reverse, List.length_take] at hle
      rw [List.isEmpty_iff.mp hempty, List.length_nil]
      omega
  · next hfound =>
      have hlong : start < bytes.length := by
        by_contra hle
        have hnil : bytes.drop start = [] := List.drop_eq_nil_of_le (by omega)
        simp [hnil] at hfound
      rw [List.length_append, List.length_reverse, List.length_take]
      omega

end Linewise
