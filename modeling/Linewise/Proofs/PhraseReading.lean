import Mathlib.Data.List.TakeWhile
import Linewise.Proofs.Numerals

/-!
# Reading a phrase

Arguments are read one by one, and an option with its value apart is two of them.  What is
read of a phrase are its parts, whatever way it is written: each part is taken in turn, and
the first that cannot be taken ends the reading.

* `Given.addPart`, `Given.addParts` — what parts do to what was given before them;
* `Given.readShort_letters` — the switches at the front of a cluster are taken first;
* `Given.readArgument_awaits`, `Given.readArgument_asks` — arguments that are no phrase by
  themselves;
* `Given.foldlM_phrase`, `Given.foldlM_written` — **phrases are read as their parts.**
-/

namespace Linewise

/-! ## Names -/

namespace CommandOption

theorem ofLong?_quantity (q : Quantity) : ofLong? (Utf8.encode q.name) = some q.option := by
  cases q <;> decide

theorem ofShort?_switch (s : Switch) : ofShort? (letterByte s.letter) = some s.option := by
  cases s <;> decide

/-- A long name is the name of its option, to the last byte. -/
theorem eq_long_of_ofLong? {name : Bytes} {o : CommandOption} (h : ofLong? name = some o) :
    name = Utf8.encode o.long := by
  have hname := List.find?_some h
  exact (beq_iff_eq.mp hname).symm

/-- A letter that is found is the letter of its option. -/
theorem short?_of_ofShort? {name : UInt8} {o : CommandOption} (h : ofShort? name = some o) :
    ∃ c, o.short? = some c ∧ name = letterByte c := by
  have hname := List.find?_some h
  cases hshort : o.short? with
  | none => simp [hshort] at hname
  | some c =>
      rw [hshort, Option.any_some, beq_iff_eq] at hname
      refine ⟨c, rfl, ?_⟩
      rw [letterByte, hname]
      exact UInt8.ofNat_toNat.symm

/-- Every option is a switch, or a quantity, or a question. -/
theorem switch_or_quantity (o : CommandOption) :
    (∃ s : Switch, o = s.option) ∨ (∃ q : Quantity, o = q.option) ∨ o = help ∨ o = version := by
  cases o with
  | threads => exact Or.inr (Or.inl ⟨.threads, rfl⟩)
  | minSize => exact Or.inr (Or.inl ⟨.minSize, rfl⟩)
  | sequential => exact Or.inl ⟨.sequential, rfl⟩
  | number => exact Or.inl ⟨.number, rfl⟩
  | countOnly => exact Or.inl ⟨.countOnly, rfl⟩
  | help => exact Or.inr (Or.inr (Or.inl rfl))
  | version => exact Or.inr (Or.inr (Or.inr rfl))

/-- An option that takes a value is a quantity. -/
theorem exists_quantity {o : CommandOption} (h : o.takesValue = true) :
    ∃ q : Quantity, o = q.option := by
  obtain ⟨s, rfl⟩ | hquantity | rfl | rfl := o.switch_or_quantity
  · cases s <;> cases h
  · exact hquantity
  · cases h
  · cases h

end CommandOption

/-! ## What the parts do -/

namespace Given

/-- What one part does: a switch is turned on, a quantity is given, a file is named.  No
option may be given a second time. -/
def addPart (g : Given) : Part → Except Request Given
  | .switch s => g.addSwitch s.option
  | .quantity .threads n =>
      if g.threads.isSome then .error .misuse else .ok { g with threads := some n }
  | .quantity .minSize n =>
      if g.minSize.isSome then .error .misuse else .ok { g with minSize := some n }
  | .file name => g.addFile name

/-- Parts are taken one after the other, up to the first that cannot be taken. -/
def addParts (g : Given) (parts : List Part) : Except Request Given :=
  parts.foldlM addPart g

theorem addParts_append (g : Given) (parts later : List Part) :
    g.addParts (parts ++ later) = (g.addParts parts).bind (·.addParts later) :=
  List.foldlM_append

theorem addParts_singleton (g : Given) (part : Part) : g.addParts [part] = g.addPart part := by
  simp [addParts]

/-- The digits of a number give the quantity, whatever zeros stand before them. -/
theorem addValue_of_spells {value : Bytes} {n : Nat} (h : Spells value n) (g : Given)
    (q : Quantity) : g.addValue q.option value = g.addPart (.quantity q n) := by
  rw [addValue, number?_eq_some_iff.mpr h]
  cases q <;> rfl

/-- What spells no number is not accepted for either quantity. -/
theorem addValue_of_not_spells {value : Bytes} (h : ∀ n, ¬ Spells value n) (g : Given)
    (o : CommandOption) : g.addValue o value = .error .misuse := by
  have hnone : number? value = none :=
    Option.eq_none_iff_forall_ne_some.mpr fun n hn => h n (number?_eq_some_iff.mp hn)
  rw [addValue, hnone]

/-! ## Reading one argument -/

variable (g : Given)

/-- An argument that does not look like an option is the name of a file. -/
theorem readArgument_file {name : Bytes} (plain : name.head? ≠ some dash ∨ name = [dash]) :
    readArgument (g, .anything) name = (g.addFile name).map (·, .anything) := by
  rw [readArgument, if_neg]
  rintro ⟨hhead, hne⟩
  rcases plain with hplain | hplain
  · exact hplain hhead
  · exact hne hplain

/-- Behind two dashes stands a long name. -/
theorem readArgument_long {body : Bytes} (hne : body ≠ []) :
    readArgument (g, .anything) (dash :: dash :: body) = g.readLong body := by
  simp [readArgument, hne]

/-- Behind one dash stands a cluster of letters. -/
theorem readArgument_short {body : Bytes} (hne : body ≠ []) (hdash : body.head? ≠ some dash) :
    readArgument (g, .anything) (dash :: body) = g.readShort body := by
  cases body with
  | nil => exact absurd rfl hne
  | cons b body =>
      have hb : b ≠ dash := by simpa using hdash
      simp [readArgument, hb]

/-- The switches of a cluster are taken one after the other, and then the rest is read. -/
theorem readShort_letters (switches : List Switch) (rest : Bytes) :
    g.readShort (letters switches ++ rest) =
      (g.addParts (switches.map .switch)).bind (·.readShort rest) := by
  induction switches generalizing g with
  | nil => rfl
  | cons s switches ih =>
      have hvalue : s.option.takesValue = false := by cases s <;> rfl
      rw [letters_cons, List.cons_append, readShort, CommandOption.ofShort?_switch]
      simp only [hvalue, Bool.false_eq_true, if_false]
      rw [List.map_cons, addParts, List.foldlM_cons, addPart]
      cases g.addSwitch s.option with
      | error request => rfl
      | ok next => exact ih next

/-- A cluster does not begin with a dash, for no switch has it as its letter. -/
theorem head?_letters_ne_dash (switches : List Switch) {rest : Bytes}
    (h : rest.head? ≠ some dash) :
    (letters switches ++ rest).head? ≠ some dash := by
  cases switches with
  | nil => exact h
  | cons s switches => cases s <;> simp [letterByte, Switch.letter, dash]

/-- A cluster that is not a dash alone. -/
theorem readArgument_cluster {switches : List Switch} {rest : Bytes}
    (hne : letters switches ++ rest ≠ [])
    (hrest : rest.head? ≠ some dash) :
    readArgument (g, .anything) (cluster switches rest) =
      (g.addParts (switches.map .switch)).bind (·.readShort rest) := by
  rw [cluster, readArgument_short g hne (head?_letters_ne_dash switches hrest),
    readShort_letters]

/-- A cluster of switches alone is read as these switches. -/
theorem readArgument_letters {switches : List Switch} (hne : switches ≠ []) :
    readArgument (g, .anything) (cluster switches []) =
      (g.addParts (switches.map .switch)).map (·, .anything) := by
  rw [readArgument_cluster g (by simpa using hne) (by decide)]
  rfl

/-- Behind its switches, a cluster is read from the first byte that is none of them. -/
theorem readArgument_cluster_cons (switches : List Switch) {c : UInt8} (hc : c ≠ dash)
    (rest : Bytes) :
    readArgument (g, .anything) (cluster switches (c :: rest)) =
      (g.addParts (switches.map .switch)).bind (·.readShort (c :: rest)) :=
  readArgument_cluster g (by simp) (by simpa using hc)

/-- Behind the letter of the threads, an equals sign is not part of the value. -/
theorem readShort_equals (value : Bytes) :
    g.readShort (threadsLetter (equalsSign :: value)) =
      (g.addValue .threads value).map (·, .anything) := rfl

/-- Behind the letter of the threads, everything else belongs to the value. -/
theorem readShort_value {c : UInt8} (hc : c ≠ equalsSign) (value : Bytes) :
    g.readShort (threadsLetter (c :: value)) =
      (g.addValue .threads (c :: value)).map (·, .anything) := by
  have hletter : CommandOption.ofShort? (letterByte 'j') = some .threads := by decide
  simp [threadsLetter, readShort, hletter, CommandOption.takesValue, hc]

/-- An argument that an option waits for is its value.  The digits of a number never look
like an option. -/
theorem readArgument_value {value : Bytes} {n : Nat} (h : Spells value n) (q : Quantity) :
    readArgument (g, .valueOf q.option) value =
      (g.addPart (.quantity q n)).map (·, .anything) := by
  obtain ⟨c, rest, hvalue, -, hdash⟩ := h.exists_cons
  have hplain : ¬ (value.head? = some dash ∧ value ≠ [dash]) := by
    rw [hvalue]
    simpa using fun hhead => absurd hhead hdash
  rw [readArgument, if_neg hplain, addValue_of_spells h]

/-- An argument that lacks only a value leaves its option waiting. -/
theorem readArgument_awaits {argument : Bytes} {switches : List Switch} {q : Quantity}
    (h : AwaitsValue argument switches q) :
    readArgument (g, .anything) argument =
      (g.addParts (switches.map .switch)).map (·, .valueOf q.option) := by
  cases h with
  | long q => cases q <;> rfl
  | short switches =>
      rw [threadsLetter, readArgument_cluster_cons g switches (by decide)]
      rfl

/-- An argument that asks for help or for the version ends the reading, once the switches
before the question have been taken. -/
theorem readArgument_asks {argument : Bytes} {switches : List Switch} {request : Request}
    (h : AsksFor argument switches request) :
    readArgument (g, .anything) argument =
      (g.addParts (switches.map .switch)).bind fun _ => .error request := by
  cases h with
  | longHelp => rfl
  | longVersion => rfl
  | shortHelp switches rest =>
      rw [readArgument_cluster_cons g switches (by decide)]
      rfl
  | shortVersion switches rest =>
      rw [readArgument_cluster_cons g switches (by decide)]
      rfl

/-- The long name of a switch turns it on. -/
theorem readArgument_longSwitch (s : Switch) :
    readArgument (g, .anything) (longWord s.name) =
      (g.addPart (.switch s)).map (·, .anything) := by
  cases s <;> rfl

/-! ## Long names -/

theorem bne_equalsSign_of_not_mem {name : Bytes} (h : equalsSign ∉ name) :
    ∀ b ∈ name, (b != equalsSign) = true := by
  intro b hb
  rw [bne_iff_ne]
  rintro rfl
  exact h hb

/-- A long name without an equals sign stands for itself alone. -/
theorem readLong_name {name : Bytes} (h : equalsSign ∉ name) :
    g.readLong name = match CommandOption.ofLong? name with
      | none => .error .misuse
      | some o =>
          if o.takesValue then .ok (g, .valueOf o) else (g.addSwitch o).map (·, .anything) := by
  have hname := bne_equalsSign_of_not_mem h
  have htake := List.takeWhile_eq_self_iff.mpr hname
  have hdrop := List.dropWhile_eq_nil_iff.mpr hname
  cases hoption : CommandOption.ofLong? name with
  | none => simp [readLong, htake, hoption]
  | some o => simp [readLong, htake, hdrop, hoption]

/-- The first equals sign ends a long name, and its value stands behind. -/
theorem readLong_value {name : Bytes} (h : equalsSign ∉ name) (value : Bytes) :
    g.readLong (name ++ equalsSign :: value) = match CommandOption.ofLong? name with
      | none => .error .misuse
      | some o =>
          if o.takesValue then (g.addValue o value).map (·, .anything) else .error .misuse := by
  have hname := bne_equalsSign_of_not_mem h
  have htake : (name ++ equalsSign :: value).takeWhile (· != equalsSign) = name := by
    simp [List.takeWhile_append_of_pos hname]
  have hdrop : (name ++ equalsSign :: value).dropWhile (· != equalsSign) =
      equalsSign :: value := by
    simp [List.dropWhile_append_of_pos hname]
  cases hoption : CommandOption.ofLong? name with
  | none => simp [readLong, htake, hoption]
  | some o => simp [readLong, htake, hdrop, hoption]

/-- A long name and the digits behind its equals sign give the quantity. -/
theorem readArgument_longValue (q : Quantity) {value : Bytes} {n : Nat}
    (h : Spells value n) :
    readArgument (g, .anything) (longWord q.name ++ equalsSign :: value) =
      (g.addPart (.quantity q n)).map (·, .anything) := by
  have hplain : equalsSign ∉ Utf8.encode q.name := by cases q <;> decide
  have htakes : q.option.takesValue = true := by cases q <;> rfl
  rw [longWord, List.cons_append, List.cons_append, readArgument_long g (by simp),
    readLong_value g hplain, CommandOption.ofLong?_quantity]
  simp only [htakes, if_true]
  rw [addValue_of_spells h]

/-! ## Phrases -/

theorem addParts_concat (parts : List Part) (part : Part) :
    g.addParts (parts ++ [part]) = (g.addParts parts).bind (·.addPart part) := by
  simp only [addParts_append, addParts_singleton]

/-- A cluster with a value in it, however the value stands behind its letter. -/
theorem readArgument_clusterValue (switches : List Switch) {rest : Bytes} {n : Nat}
    (h : ∀ next : Given, next.readShort (threadsLetter rest) =
      (next.addPart (.quantity .threads n)).map (·, .anything)) :
    readArgument (g, .anything) (cluster switches (threadsLetter rest)) =
      (g.addParts (switches.map .switch ++ [.quantity .threads n])).map (·, .anything) := by
  rw [threadsLetter, readArgument_cluster_cons g switches (by decide), addParts_concat]
  cases g.addParts (switches.map .switch) with
  | error request => rfl
  | ok next => exact h next

/-- A value in the next argument does what it does in the same one. -/
theorem foldlM_valueApart {opener value : Bytes} {switches : List Switch} {q : Quantity}
    {n : Nat} (awaits : AwaitsValue opener switches q) (spells : Spells value n) :
    [opener, value].foldlM readArgument (g, .anything) =
      (g.addParts (switches.map .switch ++ [.quantity q n])).map (·, .anything) := by
  rw [List.foldlM_cons, readArgument_awaits g awaits, addParts_concat]
  cases g.addParts (switches.map .switch) with
  | error request => rfl
  | ok next =>
      change [value].foldlM readArgument (next, .valueOf q.option) =
        (next.addPart (.quantity q n)).map (·, .anything)
      rw [List.foldlM_cons, readArgument_value next spells]
      simp

/-- **A phrase is read as its parts**, one after the other. -/
theorem foldlM_phrase {arguments : List Bytes} {parts : List Part}
    (h : Phrase arguments parts) :
    arguments.foldlM readArgument (g, .anything) = (g.addParts parts).map (·, .anything) := by
  have hsingle : ∀ argument, [argument].foldlM readArgument (g, .anything) =
      readArgument (g, .anything) argument := fun argument => by simp
  cases h with
  | file plain => rw [hsingle, readArgument_file g plain, addParts_singleton, addPart]
  | longSwitch s => rw [hsingle, readArgument_longSwitch, addParts_singleton]
  | letters nonempty => rw [hsingle, readArgument_letters g nonempty]
  | longValue q spells => rw [hsingle, readArgument_longValue g q spells, addParts_singleton]
  | shortValue switches spells =>
      obtain ⟨c, rest, rfl, hc, -⟩ := spells.exists_cons
      rw [hsingle, readArgument_clusterValue g switches]
      intro next
      rw [readShort_value next hc, ← addValue_of_spells spells]
      rfl
  | shortEquals switches spells =>
      rw [hsingle, readArgument_clusterValue g switches]
      intro next
      rw [readShort_equals, ← addValue_of_spells spells]
      rfl
  | valueApart awaits spells => exact foldlM_valueApart g awaits spells

/-- A phrase of one argument is read as its parts. -/
theorem readArgument_phrase {argument : Bytes} {parts : List Part}
    (h : Phrase [argument] parts) :
    readArgument (g, .anything) argument = (g.addParts parts).map (·, .anything) := by
  rw [← foldlM_phrase g h]
  simp

/-- **What is written down is read as its parts**, phrase by phrase. -/
theorem foldlM_written {arguments : List Bytes} {parts : List Part}
    (h : Written arguments parts) :
    arguments.foldlM readArgument (g, .anything) = (g.addParts parts).map (·, .anything) := by
  induction h generalizing g with
  | nothing => rfl
  | more first tail ih =>
      rw [List.foldlM_append, foldlM_phrase g first, addParts_append]
      cases g.addParts _ with
      | error request => rfl
      | ok next => exact ih next

end Given

end Linewise
