import Mathlib.Tactic.ByContra
import Linewise.Settings.Grammar

/-!
# Numerals

`number?` reads a value in one pass over its digits.  `Spells` says which number a value
spells, by the places of its digits and without a pass.

* `unsigned` — a value without the sign that it may begin with;
* `number?_of_digits` — a value is read by its digits alone;
* `number?_eq_some_iff` — **a value is read as the number that it spells.**
-/

namespace Linewise

/-- Bytes from `'0'` to `'9'` are read as their distances from `'0'`. -/
theorem mapM_digit?_of_forall {bytes : Bytes} (h : ∀ b ∈ bytes, 48 ≤ b ∧ b ≤ 57) :
    bytes.mapM digit? = some (bytes.map fun b => b.toNat - 48) := by
  induction bytes with
  | nil => rfl
  | cons b bytes ih =>
      have hdigit : digit? b = some (b.toNat - 48) := if_pos (h b List.mem_cons_self)
      rw [List.mapM_cons, hdigit, ih fun c hc => h c (List.mem_cons_of_mem _ hc)]
      rfl

/-- Only such bytes are read as digits. -/
theorem forall_of_mapM_digit? {bytes : Bytes} {ds : List Nat}
    (h : bytes.mapM digit? = some ds) : ∀ b ∈ bytes, 48 ≤ b ∧ b ≤ 57 := by
  induction bytes generalizing ds with
  | nil => simp
  | cons b bytes ih =>
      rw [List.mapM_cons] at h
      obtain ⟨d, hd, h⟩ := Option.bind_eq_some_iff.mp h
      obtain ⟨later, hlater, -⟩ := Option.bind_eq_some_iff.mp h
      intro c hc
      rcases List.mem_cons.mp hc with rfl | hmem
      · by_contra hdigit
        rw [digit?, if_neg hdigit] at hd
        cases hd
      · exact ih hlater c hmem

/-- Reading the digits one by one adds up to their value by place. -/
theorem foldl_digits (digits : Bytes) :
    (digits.map fun b => b.toNat - 48).foldl (fun n d => n * 10 + d) 0 = placeValue digits := by
  rw [placeValue, Nat.ofDigits_eq_foldr, List.map_reverse, List.foldr_reverse]
  congr 1
  funext n d
  simp only [Nat.cast_id]
  omega

/-- What is left of a value when the sign in front is taken off. -/
def unsigned (value : Bytes) : Bytes :=
  if value.head? = some plusSign then value.tail else value

/-- A value is its digits, or a plus sign before them. -/
theorem eq_unsigned_or (value : Bytes) :
    value = unsigned value ∨ value = plusSign :: unsigned value := by
  unfold unsigned
  split
  · next hsign =>
      cases value with
      | nil => cases hsign
      | cons b bytes => exact Or.inr (by simpa using hsign)
  · exact Or.inl rfl

theorem unsigned_plus (digits : Bytes) : unsigned (plusSign :: digits) = digits := rfl

/-- Digits are left as they are, for no digit is a plus sign. -/
theorem unsigned_digits {digits : Bytes} (h : ∀ b ∈ digits, 48 ≤ b ∧ b ≤ 57) :
    unsigned digits = digits := by
  refine if_neg ?_
  intro hsign
  have hdigit := h plusSign (List.mem_of_mem_head? hsign)
  revert hdigit
  decide

/-- A number is read from what stands behind the sign. -/
theorem number?_eq (value : Bytes) :
    number? value = if (unsigned value).isEmpty then none
      else match (unsigned value).mapM digit? with
        | none => none
        | some ds =>
            let n := ds.foldl (fun n d => n * 10 + d) 0
            if n < numberLimit then some n else none := rfl

/-- A value is read by its digits alone. -/
theorem number?_of_digits {value : Bytes} (hne : unsigned value ≠ [])
    (hdigits : ∀ b ∈ unsigned value, 48 ≤ b ∧ b ≤ 57) :
    number? value =
      if placeValue (unsigned value) < 2 ^ 64 then some (placeValue (unsigned value))
      else none := by
  have hempty : (unsigned value).isEmpty = false := by simpa using hne
  rw [number?_eq, hempty, mapM_digit?_of_forall hdigits, ← foldl_digits]
  rfl

/-- **A value is read as the number that it spells**, and refused if it spells none. -/
theorem number?_eq_some_iff {value : Bytes} {n : Nat} :
    number? value = some n ↔ Spells value n := by
  constructor
  · intro h
    have hne : unsigned value ≠ [] := by
      intro hnil
      rw [number?_eq, hnil] at h
      cases h
    have hdigits : ∀ b ∈ unsigned value, 48 ≤ b ∧ b ≤ 57 := by
      cases hmap : (unsigned value).mapM digit? with
      | none =>
          rw [number?_eq, hmap] at h
          simp at h
      | some ds => exact forall_of_mapM_digit? hmap
    rw [number?_of_digits hne hdigits] at h
    obtain ⟨hlt, hn⟩ := Option.ite_none_right_eq_some.mp h
    cases hn
    exact ⟨unsigned value, eq_unsigned_or value, hne, hdigits, rfl, hlt⟩
  · rintro ⟨digits, hvalue, hne, hdigits, rfl, hlt⟩
    have hunsigned : unsigned value = digits := by
      rcases hvalue with rfl | rfl
      · exact unsigned_digits hdigits
      · exact unsigned_plus digits
    subst hunsigned
    rw [number?_of_digits hne hdigits, if_pos hlt]

/-- Leading zeros and a sign are no part of the number. -/
example : number? [43, 48, 48, 49, 50] = some 12 := by decide

/-- A value has a first byte, which makes it neither an option nor the rest of one. -/
theorem Spells.exists_cons {value : Bytes} {n : Nat} (h : Spells value n) :
    ∃ c rest, value = c :: rest ∧ c ≠ equalsSign ∧ c ≠ dash := by
  obtain ⟨digits, hvalue, hne, hdigits, -⟩ := h
  rcases hvalue with rfl | rfl
  · obtain ⟨c, rest, rfl⟩ := List.exists_cons_of_ne_nil hne
    have hc := hdigits c List.mem_cons_self
    refine ⟨c, rest, rfl, ?_, ?_⟩
    · rintro rfl
      exact absurd hc (by decide)
    · rintro rfl
      exact absurd hc (by decide)
  · exact ⟨plusSign, digits, rfl, by decide, by decide⟩

end Linewise
