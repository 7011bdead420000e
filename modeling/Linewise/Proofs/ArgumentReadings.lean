import Mathlib.Tactic.ByContra
import Linewise.Proofs.PhraseReading

/-!
# Every argument has a reading

Where an option may stand, an argument is a phrase, or it opens one and awaits the value, or
it asks for something, or it ends the options.  Any other argument is wrong.  The cases are
found as the argument is read: a long name goes up to an equals sign, and a cluster begins
with the letters of switches.

* `Given.eq_misuse_of_addParts` — parts that cannot be taken are misuse;
* `Reading` — the cases; `reading` — **there are no others.**
-/

namespace Linewise

/-- What is made of a result comes from one. -/
theorem exists_of_map_ok {ε α β : Type} {x : Except ε α} {f : α → β} {b : β}
    (h : x.map f = .ok b) : ∃ a, x = .ok a ∧ f a = b := by
  cases x with
  | error e => cases h
  | ok a => exact ⟨a, rfl, Except.ok.inj h⟩

/-- What is made of a result fails only as the result does. -/
theorem eq_error_of_map {ε α β : Type} {x : Except ε α} {f : α → β} {e : ε}
    (h : x.map f = .error e) : x = .error e := by
  cases x with
  | error e => cases h; rfl
  | ok a => cases h

namespace Given

/-- A part that cannot be taken is a misuse. -/
theorem eq_misuse_of_addPart {g : Given} {part : Part} {request : Request}
    (h : g.addPart part = .error request) : request = .misuse := by
  cases part with
  | switch s =>
      cases s <;> simp only [addPart, Switch.option, addSwitch] at h <;> split at h <;>
        cases h <;> rfl
  | quantity q n =>
      cases q <;> simp only [addPart] at h <;> split at h <;> cases h <;> rfl
  | file name =>
      simp only [addPart, addFile] at h
      split at h <;> cases h
      rfl

/-- So it is among several parts. -/
theorem eq_misuse_of_addParts {g : Given} {parts : List Part} {request : Request}
    (h : g.addParts parts = .error request) : request = .misuse := by
  induction parts generalizing g with
  | nil => cases h
  | cons part parts ih =>
      rw [addParts, List.foldlM_cons] at h
      cases hpart : g.addPart part with
      | error other =>
          rw [hpart] at h
          cases h
          exact eq_misuse_of_addPart hpart
      | ok next =>
          rw [hpart] at h
          exact ih h

theorem addPart_file (g : Given) (name : Bytes) : g.addPart (.file name) = g.addFile name := rfl

/-- Where a value is awaited, an argument that is right spells a number. -/
theorem readArgument_value_ok {g : Given} {q : Quantity} {argument : Bytes}
    {next : Given × Awaiting} (h : readArgument (g, .valueOf q.option) argument = .ok next) :
    ∃ n, Spells argument n ∧ (g.addPart (.quantity q n)).map (·, .anything) = .ok next := by
  by_cases hspells : ∃ n, Spells argument n
  · obtain ⟨n, hn⟩ := hspells
    exact ⟨n, hn, readArgument_value g hn q ▸ h⟩
  · rw [readArgument, addValue_of_not_spells (not_exists.mp hspells)] at h
    split at h <;> cases h

/-- An argument that is wrong as a value is a misuse. -/
theorem eq_misuse_of_readArgument_value {g : Given} {q : Quantity} {argument : Bytes}
    {request : Request} (h : readArgument (g, .valueOf q.option) argument = .error request) :
    request = .misuse := by
  by_cases hspells : ∃ n, Spells argument n
  · obtain ⟨n, hn⟩ := hspells
    rw [readArgument_value g hn] at h
    exact eq_misuse_of_addPart (eq_error_of_map h)
  · rw [readArgument, addValue_of_not_spells (not_exists.mp hspells)] at h
    split at h <;> cases h <;> rfl

end Given

/-- What an argument is, where an option may stand.  It is wrong if nothing that was given
before makes it right. -/
inductive Reading (argument : Bytes) : Prop
  | phrase {parts : List Part} (phrase : Phrase [argument] parts)
  | awaits {switches : List Switch} {q : Quantity} (awaits : AwaitsValue argument switches q)
  | asks {switches : List Switch} {request : Request}
      (asks : AsksFor argument switches request)
  | ends (ends : argument = endOfOptions)
  | wrong (wrong : ∀ g : Given, Given.readArgument (g, .anything) argument = .error .misuse)

namespace Reading

open Given

/-- An argument with a long name that no value follows. -/
theorem of_name {name : Bytes} (hne : name ≠ []) (hplain : equalsSign ∉ name) :
    Reading (dash :: dash :: name) := by
  cases hname : CommandOption.ofLong? name with
  | none =>
      refine wrong fun g => ?_
      rw [readArgument_long g hne, readLong_name g hplain, hname]
  | some o =>
      obtain rfl := CommandOption.eq_long_of_ofLong? hname
      obtain ⟨s, rfl⟩ | ⟨q, rfl⟩ | rfl | rfl := o.switch_or_quantity
      · have hlong : s.option.long = s.name := by cases s <;> rfl
        rw [hlong]
        exact phrase (.longSwitch s)
      · have hlong : q.option.long = q.name := by cases q <;> rfl
        rw [hlong]
        exact awaits (.long q)
      · exact asks .longHelp
      · exact asks .longVersion

/-- An argument with a long name and a value behind it. -/
theorem of_value {name : Bytes} (hplain : equalsSign ∉ name) (value : Bytes) :
    Reading (dash :: dash :: (name ++ equalsSign :: value)) := by
  have hne : name ++ equalsSign :: value ≠ [] := by simp
  cases hname : CommandOption.ofLong? name with
  | none =>
      refine wrong fun g => ?_
      rw [readArgument_long g hne, readLong_value g hplain, hname]
  | some o =>
      cases htakes : o.takesValue with
      | false =>
          refine wrong fun g => ?_
          rw [readArgument_long g hne, readLong_value g hplain, hname]
          simp [htakes]
      | true =>
          obtain rfl := CommandOption.eq_long_of_ofLong? hname
          obtain ⟨q, rfl⟩ := CommandOption.exists_quantity htakes
          have hlong : q.option.long = q.name := by cases q <;> rfl
          by_cases hspells : ∃ n, Spells value n
          · obtain ⟨n, hn⟩ := hspells
            rw [hlong]
            exact phrase (.longValue q hn)
          · refine wrong fun g => ?_
            rw [readArgument_long g hne, readLong_value g hplain, hname]
            simp only [htakes, if_true]
            rw [addValue_of_not_spells (not_exists.mp hspells)]
            rfl

/-- Every argument with two dashes and something behind them has a reading. -/
theorem of_long {body : Bytes} (hne : body ≠ []) : Reading (dash :: dash :: body) := by
  by_cases hmem : equalsSign ∈ body
  · obtain ⟨name, value, rfl, hplain⟩ := List.eq_append_cons_of_mem hmem
    exact of_value hplain value
  · exact of_name hne hmem

/-- The letters of switches that a byte string begins with, and what comes behind them. -/
theorem exists_letters (body : Bytes) :
    ∃ (switches : List Switch) (rest : Bytes),
      body = letters switches ++ rest ∧
        ∀ name ∈ rest.head?, ∀ s : Switch, CommandOption.ofShort? name ≠ some s.option := by
  induction body with
  | nil => exact ⟨[], [], rfl, by simp⟩
  | cons b body ih =>
      by_cases hswitch : ∃ s : Switch, CommandOption.ofShort? b = some s.option
      · obtain ⟨s, hs⟩ := hswitch
        obtain ⟨switches, rest, rfl, hrest⟩ := ih
        obtain ⟨c, hshort, rfl⟩ := CommandOption.short?_of_ofShort? hs
        have hc : c = s.letter := by
          cases s <;> exact (Option.some.inj hshort).symm
        refine ⟨s :: switches, rest, ?_, hrest⟩
        rw [hc]
        rfl
      · refine ⟨[], b :: body, rfl, ?_⟩
        rintro name hname s hs
        cases hname
        exact hswitch ⟨s, hs⟩

/-- A cluster is wrong if what stands behind its switches is. -/
theorem wrong_of_rest {switches : List Switch} {rest : Bytes}
    (hne : letters switches ++ rest ≠ [])
    (hdash : (letters switches ++ rest).head? ≠ some dash)
    (hrest : ∀ g : Given, g.readShort rest = .error .misuse) :
    Reading (dash :: (letters switches ++ rest)) := by
  refine wrong fun g => ?_
  rw [readArgument_short g hne hdash, readShort_letters]
  cases hparts : g.addParts (switches.map .switch) with
  | error request => rw [eq_misuse_of_addParts hparts]; rfl
  | ok next => exact hrest next

/-- The letter of the number of threads, with or without a value behind it. -/
theorem of_threadsLetter (switches : List Switch) (rest : Bytes)
    (hdash : (letters switches ++ threadsLetter rest).head? ≠
      some dash) : Reading (cluster switches (threadsLetter rest)) := by
  have hne : letters switches ++ threadsLetter rest ≠ [] := by
    simp [threadsLetter]
  cases rest with
  | nil => exact awaits (.short switches)
  | cons c value =>
      by_cases hc : c = equalsSign
      · subst hc
        by_cases hspells : ∃ n, Spells value n
        · obtain ⟨n, hn⟩ := hspells
          exact phrase (.shortEquals switches hn)
        · refine wrong_of_rest hne hdash fun g => ?_
          rw [readShort_equals, addValue_of_not_spells (not_exists.mp hspells)]
          rfl
      · by_cases hspells : ∃ n, Spells (c :: value) n
        · obtain ⟨n, hn⟩ := hspells
          exact phrase (.shortValue switches hn)
        · refine wrong_of_rest hne hdash fun g => ?_
          rw [readShort_value g hc,
            addValue_of_not_spells (not_exists.mp hspells)]
          rfl

/-- Every cluster of letters has a reading. -/
theorem of_short {body : Bytes} (hne : body ≠ []) (hdash : body.head? ≠ some dash) :
    Reading (dash :: body) := by
  obtain ⟨switches, rest, rfl, hrest⟩ := exists_letters body
  cases rest with
  | nil =>
      have hswitches : switches ≠ [] := by simpa using hne
      exact phrase (.letters hswitches)
  | cons name later =>
      cases hname : CommandOption.ofShort? name with
      | none =>
          refine wrong_of_rest hne hdash fun g => ?_
          rw [readShort, hname]
      | some o =>
          obtain ⟨c, hshort, rfl⟩ := CommandOption.short?_of_ofShort? hname
          obtain ⟨s, rfl⟩ | ⟨q, rfl⟩ | rfl | rfl := o.switch_or_quantity
          · -- All switches at the front have been read already.
            exact absurd hname (hrest _ rfl s)
          · cases q with
            | threads =>
                cases hshort
                exact of_threadsLetter switches later hdash
            | minSize => cases hshort
          · cases hshort
            exact asks (.shortHelp switches later)
          · cases hshort
            exact asks (.shortVersion switches later)

end Reading

/-- **Every argument has a reading.** -/
theorem reading (argument : Bytes) : Reading argument := by
  by_cases hplain : argument.head? ≠ some dash ∨ argument = [dash]
  · exact .phrase (.file hplain)
  · obtain ⟨hhead, hne⟩ := not_or.mp hplain
    obtain ⟨body, rfl⟩ := List.head?_eq_some_iff.mp (not_not.mp hhead)
    have hbody : body ≠ [] := by simpa using hne
    by_cases hdash : body.head? = some dash
    · obtain ⟨name, rfl⟩ := List.head?_eq_some_iff.mp hdash
      by_cases hname : name = []
      · exact .ends (by rw [hname]; rfl)
      · exact .of_long hname
    · exact .of_short hbody hdash

end Linewise
