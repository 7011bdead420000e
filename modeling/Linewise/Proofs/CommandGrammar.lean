import Linewise.Proofs.ArgumentReadings
import Linewise.Proofs.GivenParts
import Linewise.Proofs.Overflow

/-!
# A command line is read by its grammar

The reading of a command line keeps what was given so far and what the next argument may be.
After any number of arguments that were right, both follow from the parts that these
arguments are a way to write down.  So the reading ends well exactly where the grammar says
that it does, and with the settings that the grammar gives.

* `ReadSoFar` — where the reading stands; `ReadSoFar.step`, `ReadSoFar.stop` — what one more
  argument does;
* `foldlM_commandLine`, `foldlM_of_reaches` — what is written by the grammar is read;
* `ofArguments_eq_run_iff`, `ofArguments_eq_asked_iff` — how a reading ends;
* `ofArguments_follows_grammar` — **what a command line asks for, by its grammar.**
-/

namespace Linewise

/-! ## Reading along -/

theorem Written.append {front back : List Bytes} {parts later : List Part}
    (h : Written front parts) (hback : Written back later) :
    Written (front ++ back) (parts ++ later) := by
  induction h with
  | nothing => exact hback
  | more first tail ih =>
      rw [List.append_assoc, List.append_assoc]
      exact .more first ih

/-- Phrases may be followed by one more. -/
theorem Written.concat {front phrase : List Bytes} {parts later : List Part}
    (h : Written front parts) (hphrase : Phrase phrase later) :
    Written (front ++ phrase) (parts ++ later) := by
  have hlast := Written.more hphrase .nothing
  rw [List.append_nil, List.append_nil] at hlast
  exact h.append hlast

open Given in
/-- What has been read so far, where `arguments` have brought the reading. -/
inductive ReadSoFar : List Bytes → Given × Awaiting → Prop
  | anything {arguments : List Bytes} {parts : List Part} (written : Written arguments parts)
      (admissible : Admissible parts) : ReadSoFar arguments (ofParts parts, .anything)
  | value {front : List Bytes} {parts : List Part} {opener : Bytes} {switches : List Switch}
      {q : Quantity} (written : Written front parts)
      (awaits : AwaitsValue opener switches q)
      (admissible : Admissible (parts ++ switches.map .switch)) :
      ReadSoFar (front ++ [opener]) (ofParts (parts ++ switches.map .switch), .valueOf q.option)
  | file {front files : List Bytes} {parts : List Part} (written : Written front parts)
      (admissible : Admissible (parts ++ files.map .file)) :
      ReadSoFar (front ++ endOfOptions :: files) (ofParts (parts ++ files.map .file), .file)

namespace ReadSoFar

open Given

variable {front : List Bytes} {state next : Given × Awaiting} {argument : Bytes}

/-- An argument where an option may stand. -/
theorem step_anything {parts : List Part} (written : Written front parts)
    (admissible : Admissible parts)
    (hread : readArgument (ofParts parts, .anything) argument = .ok next) :
    ReadSoFar (front ++ [argument]) next := by
  cases reading argument with
  | phrase phrase =>
      rw [readArgument_phrase _ phrase] at hread
      obtain ⟨g, hparts, rfl⟩ := exists_of_map_ok hread
      obtain ⟨hmore, rfl⟩ := (addParts_ofParts_iff admissible).mp hparts
      exact .anything (written.concat phrase) hmore
  | awaits awaits =>
      rw [readArgument_awaits _ awaits] at hread
      obtain ⟨g, hparts, rfl⟩ := exists_of_map_ok hread
      obtain ⟨hmore, rfl⟩ := (addParts_ofParts_iff admissible).mp hparts
      exact .value written awaits hmore
  | @asks switches request asks =>
      rw [readArgument_asks _ asks] at hread
      cases hparts : (ofParts parts).addParts (switches.map .switch) <;>
        rw [hparts] at hread <;> cases hread
  | ends ends =>
      subst ends
      cases hread
      have hnone : parts = parts ++ [].map Part.file := by simp
      rw [hnone] at admissible ⊢
      exact .file written admissible
  | wrong wrong =>
      rw [wrong] at hread
      cases hread

/-- **One more argument**, if it is right. -/
theorem step (h : ReadSoFar front state) (hread : readArgument state argument = .ok next) :
    ReadSoFar (front ++ [argument]) next := by
  cases h with
  | anything written admissible => exact step_anything written admissible hread
  | @value front parts opener switches q written awaits admissible =>
      obtain ⟨n, hspells, hread⟩ := readArgument_value_ok hread
      obtain ⟨g, hpart, rfl⟩ := exists_of_map_ok hread
      rw [← addParts_singleton] at hpart
      obtain ⟨hmore, rfl⟩ := (addParts_ofParts_iff admissible).mp hpart
      have hwritten := written.concat (.valueApart awaits hspells)
      rw [← List.append_assoc parts] at hwritten
      rw [List.append_assoc]
      exact .anything hwritten hmore
  | @file front files parts written admissible =>
      obtain ⟨g, hpart, rfl⟩ := exists_of_map_ok hread
      rw [← addPart_file, ← addParts_singleton] at hpart
      obtain ⟨hmore, rfl⟩ := (addParts_ofParts_iff admissible).mp hpart
      have hfiles : parts ++ files.map Part.file ++ [.file argument] =
          parts ++ (files ++ [argument]).map .file := by simp
      rw [hfiles] at hmore ⊢
      rw [List.append_assoc, List.cons_append]
      exact .file written hmore

/-- **One more argument**, if it ends the reading: it is wrong, or it asks for something. -/
theorem stop (h : ReadSoFar front state) {request : Request}
    (hread : readArgument state argument = .error request) (rest : List Bytes) :
    request = .misuse ∨ Reaches request (front ++ argument :: rest) := by
  cases h with
  | @anything arguments parts written admissible =>
      cases reading argument with
      | phrase phrase =>
          rw [readArgument_phrase _ phrase] at hread
          exact Or.inl (eq_misuse_of_addParts (eq_error_of_map hread))
      | awaits awaits =>
          rw [readArgument_awaits _ awaits] at hread
          exact Or.inl (eq_misuse_of_addParts (eq_error_of_map hread))
      | @asks switches asked asks =>
          rw [readArgument_asks _ asks] at hread
          cases hparts : (ofParts parts).addParts (switches.map .switch) with
          | error other =>
              rw [hparts] at hread
              cases hread
              exact Or.inl (eq_misuse_of_addParts hparts)
          | ok g =>
              rw [hparts] at hread
              cases hread
              -- The question is reached only if all switches before it go together.
              have hmore := ((addParts_ofParts_iff admissible).mp hparts).1
              exact Or.inr ⟨front, parts, argument, switches, rest, rfl, written, asks, hmore⟩
      | ends ends =>
          subst ends
          cases hread
      | wrong wrong =>
          rw [wrong] at hread
          cases hread
          exact Or.inl rfl
  | value written awaits admissible => exact Or.inl (eq_misuse_of_readArgument_value hread)
  | file written admissible =>
      have hfile := eq_error_of_map hread
      rw [← addPart_file] at hfile
      exact Or.inl (eq_misuse_of_addPart hfile)

end ReadSoFar

/-! ## The whole command line -/

namespace Given

/-- Behind the end of the options every argument is a file. -/
theorem foldlM_files (g : Given) (files : List Bytes) :
    files.foldlM readArgument (g, .file) =
      (g.addParts (files.map .file)).map (·, .file) := by
  induction files generalizing g with
  | nil => rfl
  | cons name files ih =>
      rw [List.foldlM_cons, readArgument, ← addPart_file, List.map_cons, addParts,
        List.foldlM_cons]
      cases g.addPart (.file name) with
      | error request => rfl
      | ok next => exact ih next

end Given

open Given

variable {arguments : List Bytes}

/-- **Arguments that were read** are written by the rules, as far as they go. -/
theorem readSoFar_of_foldlM {state : Given × Awaiting}
    (h : arguments.foldlM readArgument (nothing, .anything) = .ok state) :
    ReadSoFar arguments state := by
  induction arguments using List.reverseRecOn generalizing state with
  | nil =>
      cases h
      exact .anything .nothing admissible_nil
  | append_singleton front argument ih =>
      rw [List.foldlM_append] at h
      cases hfront : front.foldlM readArgument (nothing, .anything) with
      | error request =>
          rw [hfront] at h
          cases h
      | ok before =>
          have hlast : [argument].foldlM readArgument before = .ok state := by
            rw [hfront] at h
            exact h
          exact (ih hfront).step (by simpa using hlast)

/-- Arguments whose reading ends early are wrong, or reach a question. -/
theorem reaches_of_foldlM {request : Request}
    (h : arguments.foldlM readArgument (nothing, .anything) = .error request) :
    request = .misuse ∨ Reaches request arguments := by
  obtain ⟨front, argument, rest, state, rfl, hfront, hread⟩ := exists_of_foldlM_error h
  exact (readSoFar_of_foldlM hfront).stop hread rest

/-- **Arguments that are written by the rules** are read to their end. -/
theorem foldlM_commandLine {parts : List Part} (h : CommandLine arguments parts)
    (hadmissible : Admissible parts) :
    ∃ awaiting, (awaiting = .anything ∨ awaiting = .file) ∧
      arguments.foldlM readArgument (nothing, .anything) = .ok (ofParts parts, awaiting) := by
  cases h with
  | plain written =>
      refine ⟨.anything, Or.inl rfl, ?_⟩
      rw [foldlM_written nothing written, addParts_nothing_iff.mpr ⟨hadmissible, rfl⟩]
      rfl
  | @ended front files parts written =>
      refine ⟨.file, Or.inr rfl, ?_⟩
      have hfront := addParts_nothing_iff.mpr ⟨hadmissible.of_append, rfl⟩
      have hfiles := (addParts_ofParts_iff hadmissible.of_append).mpr ⟨hadmissible, rfl⟩
      have hrest : files.foldlM readArgument (ofParts parts, .file) =
          .ok (ofParts (parts ++ files.map .file), .file) := by
        rw [foldlM_files, hfiles]
        rfl
      rw [List.foldlM_append, foldlM_written nothing written, hfront]
      exact hrest

/-- A question that is reached ends the reading. -/
theorem foldlM_of_reaches {request : Request} (h : Reaches request arguments) :
    arguments.foldlM readArgument (nothing, .anything) = .error request := by
  obtain ⟨front, parts, asking, switches, rest, rfl, written, asks, hadmissible⟩ := h
  have hfront := addParts_nothing_iff.mpr ⟨hadmissible.of_append, rfl⟩
  have hswitches := (addParts_ofParts_iff hadmissible.of_append).mpr ⟨hadmissible, rfl⟩
  have hasking : readArgument (ofParts parts, .anything) asking = .error request := by
    rw [readArgument_asks _ asks, hswitches]
    rfl
  have hrest : (asking :: rest).foldlM readArgument (ofParts parts, .anything) =
      .error request := by
    rw [List.foldlM_cons, hasking]
    rfl
  rw [List.foldlM_append, foldlM_written nothing written, hfront]
  exact hrest

/-- Only help and the version can be asked for. -/
theorem Reaches.help_or_version {request : Request} (h : Reaches request arguments) :
    request = .help ∨ request = .version := by
  obtain ⟨_, _, _, _, _, _, _, asks, -⟩ := h
  cases asks with
  | longHelp => exact Or.inl rfl
  | longVersion => exact Or.inr rfl
  | shortHelp => exact Or.inl rfl
  | shortVersion => exact Or.inr rfl

/-- At the end of the arguments there is no question left to answer. -/
theorem finish_misuse_or_run (state : Given × Awaiting) :
    finish state = .misuse ∨ ∃ settings, finish state = .run settings := by
  obtain ⟨g, awaiting⟩ := state
  by_cases hdone : awaiting = .anything ∨ awaiting = .file
  · rw [finish_eq g hdone]
    split
    · exact Or.inl rfl
    · exact Or.inr ⟨g.settings, rfl⟩
  · left
    cases awaiting with
    | anything => exact absurd (Or.inl rfl) hdone
    | valueOf o => rfl
    | file => exact absurd (Or.inr rfl) hdone

/-- **A command line runs** with the settings that it is a way to write down, and with no
others. -/
theorem ofArguments_eq_run_iff {settings : Settings} :
    Request.ofArguments arguments = .run settings ↔ Renders settings arguments := by
  rw [Request.ofArguments]
  constructor
  · intro h
    cases hfold : arguments.foldlM readArgument (nothing, .anything) with
    | error request =>
        rw [hfold] at h
        cases h
        obtain hmisuse | hreaches := reaches_of_foldlM hfold
        · cases hmisuse
        · obtain hhelp | hversion := hreaches.help_or_version
          · cases hhelp
          · cases hversion
    | ok state =>
        rw [hfold] at h
        cases readSoFar_of_foldlM hfold with
        | anything written admissible =>
            have hgives := (finish_ofParts_iff admissible (Or.inl rfl)).mp h
            exact ⟨_, .plain written, hgives⟩
        | value written awaits admissible => cases h
        | file written admissible =>
            have hgives := (finish_ofParts_iff admissible (Or.inr rfl)).mp h
            exact ⟨_, .ended written, hgives⟩
  · rintro ⟨parts, hline, hgives⟩
    obtain ⟨awaiting, hdone, hfold⟩ := foldlM_commandLine hline hgives.admissible
    rw [hfold]
    exact (finish_ofParts_iff hgives.admissible hdone).mpr hgives

/-- A command line is answered with help or with the version if and only if it reaches
that question. -/
theorem ofArguments_eq_asked_iff {request : Request}
    (hasked : request = .help ∨ request = .version) :
    Request.ofArguments arguments = request ↔ Reaches request arguments := by
  rw [Request.ofArguments]
  constructor
  · intro h
    cases hfold : arguments.foldlM readArgument (nothing, .anything) with
    | error other =>
        rw [hfold] at h
        cases h
        obtain rfl | hreaches := reaches_of_foldlM hfold
        · simp at hasked
        · exact hreaches
    | ok state =>
        rw [hfold] at h
        cases h
        obtain hmisuse | ⟨settings, hrun⟩ := finish_misuse_or_run state
        · simp [hmisuse] at hasked
        · simp [hrun] at hasked
  · intro h
    rw [foldlM_of_reaches h]

/-- **The grammar of a command line.**  What is asked for is to run with some settings exactly
if the arguments are a way to write these settings down, and help or the version exactly if an
argument asks for it before anything is wrong.  All other arguments are misuse. -/
theorem ofArguments_follows_grammar (arguments : List Bytes) :
    (∀ settings, Request.ofArguments arguments = .run settings ↔
      Renders settings arguments) ∧
      (Request.ofArguments arguments = .help ↔ Reaches .help arguments) ∧
      (Request.ofArguments arguments = .version ↔ Reaches .version arguments) ∧
      (Request.ofArguments arguments = .misuse ↔
        ¬ Reaches .help arguments ∧ ¬ Reaches .version arguments ∧
          ∀ settings, ¬ Renders settings arguments) := by
  have hhelp : Request.ofArguments arguments = .help ↔ Reaches .help arguments :=
    ofArguments_eq_asked_iff (Or.inl rfl)
  have hversion : Request.ofArguments arguments = .version ↔ Reaches .version arguments :=
    ofArguments_eq_asked_iff (Or.inr rfl)
  have hrun : ∀ settings, Request.ofArguments arguments = .run settings ↔
      Renders settings arguments := fun _ => ofArguments_eq_run_iff
  refine ⟨hrun, hhelp, hversion, ?_⟩
  simp only [← hhelp, ← hversion, ← hrun]
  cases Request.ofArguments arguments <;> simp

/-- Two switches and the number of threads in one cluster, a file in front of it, and behind
the end of the options a file that looks like an option. -/
example : Request.ofArguments ([["a"], ["-sqj", "4"], ["--", "-n"]].flatten.map Utf8.encode) =
    .run ⟨4, 1048576, true, .total, ["a", "-n"].map Utf8.encode⟩ := by decide

end Linewise
