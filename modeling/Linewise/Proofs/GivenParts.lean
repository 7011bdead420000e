import Mathlib.Data.List.Induction
import Mathlib.Tactic.ByContra
import Linewise.Proofs.PhraseReading

/-!
# What parts give

The parts of a command line are taken one by one.  A part can be taken if its option was not
given before, and a file if its name is text; and what was given by then are the parts taken
before it.  So parts are taken to the last one exactly if they go together, in any order, and
what they give at the end are the settings of the grammar.

* `Part.Follows`, `admissible_concat_iff` — a part that may come behind others;
* `Given.ofParts`, `Given.addParts_nothing_iff` — **parts that go together** are taken, and each
  of them counts;
* `Given.finish_ofParts_iff` — **the settings that they give.**
-/

namespace Linewise

/-! ## Parts that go together -/

namespace Part

/-- The option of a switch belongs to that switch alone. -/
theorem option?_eq_switch {part : Part} {s : Switch} :
    part.option? = some s.option ↔ part = switch s := by
  cases part with
  | switch t => cases s <;> cases t <;> simp [option?, Switch.option]
  | quantity q n => cases s <;> cases q <;> simp [option?, Switch.option, Quantity.option]
  | file name => simp [option?]

/-- The option of a quantity belongs to the parts that give it a value. -/
theorem option?_eq_quantity {part : Part} {q : Quantity} :
    part.option? = some q.option ↔ (part.valueOf? q).isSome := by
  cases part with
  | switch s =>
      cases s <;> cases q <;> simp [option?, valueOf?, Switch.option, Quantity.option]
  | quantity r n => cases q <;> cases r <;> simp [option?, valueOf?, Quantity.option]
  | file name => simp [option?, valueOf?]

end Part

/-- A switch is among the parts if its option is. -/
theorem switch_mem_iff {parts : List Part} {s : Switch} :
    Part.switch s ∈ parts ↔ s.option ∈ parts.filterMap Part.option? := by
  simp only [List.mem_filterMap, Part.option?_eq_switch, exists_eq_right]

/-- A quantity has a value from the parts if its option is among theirs. -/
theorem isSome_valueOf?_iff {parts : List Part} {q : Quantity} :
    (parts.findSome? (Part.valueOf? q)).isSome ↔ q.option ∈ parts.filterMap Part.option? := by
  simp only [List.findSome?_isSome_iff, List.mem_filterMap, Part.option?_eq_quantity]

namespace Given

/-- What parts that go together give. -/
def ofParts (parts : List Part) : Given where
  threads := parts.findSome? (Part.valueOf? .threads)
  minSize := parts.findSome? (Part.valueOf? .minSize)
  sequential := decide (Part.switch .sequential ∈ parts)
  number := decide (Part.switch .number ∈ parts)
  countOnly := decide (Part.switch .countOnly ∈ parts)
  files := (parts.filterMap Part.file?).reverse

end Given

/-- The part may come behind the others: its option is not among theirs, and the name of its
file is text. -/
structure Part.Follows (part : Part) (parts : List Part) : Prop where
  fresh : ∀ o, part.option? = some o → o ∉ parts.filterMap Part.option?
  text : ∀ name, part = .file name → (Utf8.decode? name).isSome

theorem admissible_nil : Admissible [] := ⟨List.nodup_nil, by simp⟩

/-- Parts go together with one more if that may come behind them. -/
theorem admissible_concat_iff {parts : List Part} {part : Part} :
    Admissible (parts ++ [part]) ↔ Admissible parts ∧ part.Follows parts := by
  constructor
  · rintro ⟨honce, htext⟩
    rw [List.filterMap_append, List.nodup_append] at honce
    obtain ⟨hparts, -, hdisjoint⟩ := honce
    refine ⟨⟨hparts, fun name hname => htext name (List.mem_append_left _ hname)⟩, ?_, ?_⟩
    · intro o ho hmem
      exact hdisjoint o hmem o (by simp [ho]) rfl
    · rintro name rfl
      exact htext name (by simp)
  · rintro ⟨⟨honce, htext⟩, hfresh, hname⟩
    refine ⟨?_, ?_⟩
    · rw [List.filterMap_append, List.nodup_append]
      refine ⟨honce, ?_, ?_⟩
      · cases ho : part.option? <;> simp [ho]
      · rintro o hmem p hp rfl
        exact hfresh o (by simpa [eq_comm] using hp) hmem
    · intro name hmem
      rcases List.mem_append.mp hmem with hparts | hpart
      · exact htext name hparts
      · exact hname name (List.mem_singleton.mp hpart).symm

/-- Parts that go together do so without the last of them. -/
theorem Admissible.of_append {parts later : List Part} (h : Admissible (parts ++ later)) :
    Admissible parts := by
  obtain ⟨honce, htext⟩ := h
  rw [List.filterMap_append] at honce
  refine ⟨honce.sublist (List.sublist_append_left _ _), ?_⟩
  intro name hname
  exact htext name (List.mem_append_left _ hname)

namespace Given

/-- A part that may come behind others is taken behind them. -/
theorem addPart_ofParts_of_follows {parts : List Part} {part : Part} (h : part.Follows parts) :
    (ofParts parts).addPart part = .ok (ofParts (parts ++ [part])) := by
  cases part with
  | switch s =>
      have hfresh : Part.switch s ∉ parts := by
        rw [switch_mem_iff]
        exact h.fresh s.option rfl
      cases s <;>
        simp [addPart, Switch.option, addSwitch, ofParts, hfresh, List.findSome?_append,
          Part.valueOf?, Part.file?, Option.or_none]
  | quantity q n =>
      have hfresh : parts.findSome? (Part.valueOf? q) = none := by
        rw [← Option.not_isSome_iff_eq_none, isSome_valueOf?_iff]
        exact h.fresh q.option rfl
      cases q <;>
        simp [addPart, ofParts, hfresh, List.findSome?_append, Part.valueOf?, Part.file?]
  | file name =>
      simp [addPart, addFile, h.text name rfl, ofParts, List.findSome?_append, Part.valueOf?,
        Part.file?]

/-- A part that is taken behind others may come behind them. -/
theorem follows_of_addPart_ofParts {parts : List Part} {part : Part} {g : Given}
    (h : (ofParts parts).addPart part = .ok g) : part.Follows parts := by
  cases part with
  | switch s =>
      constructor
      · intro o ho hmem
        cases ho
        have hgiven := switch_mem_iff.mpr hmem
        cases s <;> simp [addPart, Switch.option, addSwitch, ofParts, hgiven] at h
      · intro name hname
        cases hname
  | quantity q n =>
      constructor
      · intro o ho hmem
        cases ho
        have hgiven := isSome_valueOf?_iff.mpr hmem
        cases q <;> simp [addPart, ofParts, hgiven] at h
      · intro name hname
        cases hname
  | file name =>
      constructor
      · intro o ho
        cases ho
      · intro _ hname
        cases hname
        by_contra htext
        simp [addPart, addFile, htext] at h

/-- **Parts are taken exactly if they go together**, and then each of them counts. -/
theorem addParts_nothing_iff {parts : List Part} {g : Given} :
    nothing.addParts parts = .ok g ↔ Admissible parts ∧ g = ofParts parts := by
  induction parts using List.reverseRecOn generalizing g with
  | nil =>
      constructor
      · intro h
        cases h
        exact ⟨admissible_nil, rfl⟩
      · rintro ⟨-, rfl⟩
        rfl
  | append_singleton parts part ih =>
      -- The last part is taken behind all others, or is not reached.
      rw [addParts_concat, admissible_concat_iff]
      constructor
      · intro h
        cases hparts : nothing.addParts parts with
        | error request =>
            rw [hparts] at h
            cases h
        | ok before =>
            obtain ⟨hadmissible, rfl⟩ := ih.mp hparts
            rw [hparts] at h
            have hfollows := follows_of_addPart_ofParts h
            refine ⟨⟨hadmissible, hfollows⟩, ?_⟩
            have hnext := addPart_ofParts_of_follows hfollows
            exact Except.ok.inj (h.symm.trans hnext)
      · rintro ⟨⟨hadmissible, hfollows⟩, rfl⟩
        rw [ih.mpr ⟨hadmissible, rfl⟩]
        exact addPart_ofParts_of_follows hfollows

/-- **More parts are taken** exactly if all go together. -/
theorem addParts_ofParts_iff {parts more : List Part} (h : Admissible parts) {g : Given} :
    (ofParts parts).addParts more = .ok g ↔
      Admissible (parts ++ more) ∧ g = ofParts (parts ++ more) := by
  rw [← addParts_nothing_iff, addParts_append, addParts_nothing_iff.mpr ⟨h, rfl⟩]
  rfl

end Given

/-! ## The end of a command line -/

/-- A mode shows which one of two switches was given, if not both were. -/
theorem mode_eq_iff {number countOnly : Prop} [Decidable number] [Decidable countOnly]
    (hboth : ¬ (number ∧ countOnly)) {mode : Mode} :
    mode = (if number then .numbered else if countOnly then .total else .counts) ↔
      ((mode = .numbered ↔ number) ∧ (mode = .total ↔ countOnly)) := by
  by_cases hnumber : number
  · have hcount : ¬ countOnly := fun h => hboth ⟨hnumber, h⟩
    cases mode <;> simp [hnumber, hcount]
  · by_cases hcount : countOnly <;> cases mode <;> simp [hnumber, hcount]

namespace Given

/-- The settings that are given, if nothing is amiss. -/
def settings (g : Given) : Settings where
  threads := g.threads.getD 2
  minSize := g.minSize.getD 1048576
  sequential := g.sequential
  mode := if g.number then .numbered else if g.countOnly then .total else .counts
  files := g.files.reverse

/-- Where no value is awaited, only the whole can be wrong: there must be a file, and the
two modes exclude each other. -/
theorem finish_eq (g : Given) {awaiting : Awaiting}
    (hdone : awaiting = .anything ∨ awaiting = .file) :
    finish (g, awaiting) =
      if g.files.isEmpty ∨ (g.number ∧ g.countOnly) then .misuse else .run g.settings := by
  rcases hdone with rfl | rfl
  · rfl
  · rfl

/-- The settings that parts give, one by one. -/
theorem eq_settings_ofParts_iff {parts : List Part} {s : Settings}
    (hboth : ¬ (Part.switch .number ∈ parts ∧ Part.switch .countOnly ∈ parts)) :
    s = (ofParts parts).settings ↔
      s.threads = (parts.findSome? (Part.valueOf? .threads)).getD 2 ∧
      s.minSize = (parts.findSome? (Part.valueOf? .minSize)).getD 1048576 ∧
      (s.sequential = true ↔ Part.switch .sequential ∈ parts) ∧
      ((s.mode = .numbered ↔ Part.switch .number ∈ parts) ∧
        (s.mode = .total ↔ Part.switch .countOnly ∈ parts)) ∧
      s.files = parts.filterMap Part.file? := by
  obtain ⟨threads, minSize, sequential, mode, files⟩ := s
  rw [← mode_eq_iff hboth]
  simp only [settings, ofParts, Settings.mk.injEq, decide_eq_true_eq, List.reverse_reverse]
  rw [Bool.eq_iff_iff, decide_eq_true_iff]

/-- **What is given at the end** are the settings that the parts give. -/
theorem finish_ofParts_iff {parts : List Part} (h : Admissible parts) {awaiting : Awaiting}
    (hdone : awaiting = .anything ∨ awaiting = .file) {s : Settings} :
    finish (ofParts parts, awaiting) = .run s ↔ Gives parts s := by
  have hamiss : ((ofParts parts).files.isEmpty ∨
      ((ofParts parts).number ∧ (ofParts parts).countOnly)) ↔
      (parts.filterMap Part.file? = [] ∨
        (Part.switch .number ∈ parts ∧ Part.switch .countOnly ∈ parts)) := by
    simp [ofParts]
  simp only [finish_eq _ hdone, hamiss]
  constructor
  · intro hfinish
    split at hfinish
    · cases hfinish
    · next hgood =>
        obtain ⟨hne, hboth⟩ := not_or.mp hgood
        obtain ⟨ht, hm, hs, ⟨hn, hc⟩, hf⟩ :=
          (eq_settings_ofParts_iff hboth).mp (Request.run.inj hfinish).symm
        exact ⟨h, ht, hm, hs, hn, hc, hboth, hf, by rwa [hf]⟩
  · rintro ⟨-, ht, hm, hs, hn, hc, hboth, hf, hne⟩
    rw [if_neg (not_or.mpr ⟨hf ▸ hne, hboth⟩),
      (eq_settings_ofParts_iff hboth).mpr ⟨ht, hm, hs, ⟨hn, hc⟩, hf⟩]

end Given

end Linewise
