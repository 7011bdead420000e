import Mathlib.Data.List.Infix
import Linewise.Fault.Linux

/-!
# The wording of faults

A fault of the operating system ends with its number where it is shown in full, and people
are shown it without.  The number is cut off by its looks, so it matters what else may look
like it.  No wording of a platform should; and the wording of any other fault, which may well
do, is never cut, at whatever depth it is passed on.

A fault that is passed on keeps its wording and gets the path of another file in front.  So
the wording of a chain of any length is that of its root behind the paths along the chain,
and its kind is the first one that a layer fixes, or else that of the root.

* `trimTail_append` — what does not end with a tail is what is left when the tail is cut off;
* `IoError.display_os` — what an error of the operating system ends with is what is looked for
  to be cut off;
* `IoError.message_os` — **an error of the operating system loses its number**, and
  `IoError.message_of_code?` says that no other fault loses anything;
* `Wrapping`, `Layer`, `OpenError.within` — faults passed on through any number of layers;
* `OpenError.message_within`, `OpenError.kind_within` — the wording and the kind of a chain;
  `OpenError.exists_within` says that every fault is such a chain over a root;
* `faults_keep_their_wording` — **the wording and the kind at any depth.**
-/

namespace Linewise

/-! ## Cutting a tail off -/

/-- What does not begin with `head` is left as it is. -/
theorem trimTail_loop_of_not_prefix {head text : List Char} (h : ¬ head <+: text) :
    trimTail.loop head text = text := by
  rw [trimTail.loop, dif_neg]
  rintro ⟨-, hprefix⟩
  exact h (List.isPrefixOf_iff_prefix.mp hprefix)

/-- One `head` is taken off the front, and then the next. -/
theorem trimTail_loop_append {head : List Char} (hne : head ≠ []) (text : List Char) :
    trimTail.loop head (head ++ text) = trimTail.loop head text := by
  have hprefix : head.isPrefixOf (head ++ text) = true :=
    List.isPrefixOf_iff_prefix.mpr (List.prefix_append head text)
  rw [trimTail.loop, dif_pos ⟨hne, hprefix⟩, List.drop_left]

/-- **A tail is cut off** once, if what stands before it does not end with it. -/
theorem trimTail_append {tail text : String} (hne : tail.toList ≠ [])
    (hend : ¬ tail.toList <:+ text.toList) : trimTail tail (text ++ tail) = text := by
  have hhead : tail.toList.reverse ≠ [] := by simpa using hne
  have hfront : ¬ tail.toList.reverse <+: text.toList.reverse := by
    rwa [List.reverse_prefix]
  rw [trimTail, String.toList_append, List.reverse_append, trimTail_loop_append hhead,
    trimTail_loop_of_not_prefix hfront, List.reverse_reverse, String.ofList_toList]

/-! ## Errors of the operating system -/

/-- What is looked for has at least its parentheses. -/
theorem codePattern_ne_nil (code : Int) : (codePattern code).toList ≠ [] := by
  simp [codePattern]

namespace IoError

/-- The number behind any wording that does not end with it is cut off. -/
theorem withoutCode_os {code : Int} {text : String}
    (h : ¬ (codePattern code).toList <:+ text.toList) :
    (os code).withoutCode (text ++ codePattern code) = text :=
  trimTail_append (codePattern_ne_nil code) h

section

variable [Platform]

/-- **What is cut off is what was put there**: the full wording of an error of the operating
system ends with what is looked for. -/
theorem display_os (code : Int) :
    (os code).display = Platform.text code ++ codePattern code := by
  simp only [display, codePattern, String.append_assoc]

/-- **An error of the operating system loses its number**, unless its wording looks as if it
had one more. -/
theorem message_os {code : Int}
    (h : ¬ (codePattern code).toList <:+ (Platform.text code).toList) :
    (os code).message = Platform.text code := by
  rw [message, display_os]
  exact withoutCode_os h

/-- A fault without a number loses nothing. -/
theorem message_of_code? {e : IoError} (h : e.code? = none) : e.message = e.display := by
  rw [message, withoutCode, h]

end

end IoError

/-! ## Faults passed on -/

/-- A way to pass a fault on as the cause of another one. -/
inductive Wrapping where
  | missing
  | forbidden
  | unopened
  | unmapped
  deriving Repr, DecidableEq

namespace Wrapping

/-- The fault at `path` that is passed on in this way. -/
def around (w : Wrapping) (path : Path) (cause : IoError) : OpenError :=
  match w with
  | missing => .missing path cause
  | forbidden => .forbidden path cause
  | unopened => .unopened path cause
  | unmapped => .unmapped path cause

/-- What stands between the path and the wording of the cause. -/
def lead : Wrapping → String
  | unmapped => "cannot map file: "
  | _ => ""

/-- The kind, where it does not depend on the cause. -/
def kind? : Wrapping → Option FaultKind
  | missing => some .notFound
  | forbidden => some .permissionDenied
  | unopened => none
  | unmapped => none

section

variable [Platform]

/-- **The wording of one layer**: the path, and the wording of the cause behind it. -/
theorem message_around (w : Wrapping) (path : Path) (cause : IoError) :
    (w.around path cause).message = Utf8.lossy path ++ ": " ++ w.lead ++ cause.message := by
  cases w <;> simp [around, lead, OpenError.message, IoError.message, String.append_assoc]

/-- The kind of one layer: its own, or that of the cause. -/
theorem kind_around (w : Wrapping) (path : Path) (cause : IoError) :
    (w.around path cause).kind = w.kind?.getD cause.kind := by
  cases w <;> simp [around, kind?, OpenError.kind]

end

end Wrapping

/-- One file on the way of a fault that is passed on. -/
structure Layer where
  wrapping : Wrapping
  path : Path
  deriving Repr, DecidableEq

/-- What a layer puts in front of the wording of its cause. -/
def Layer.text (layer : Layer) : String :=
  Utf8.lossy layer.path ++ ": " ++ layer.wrapping.lead

namespace OpenError

variable [Platform]

/-- The fault `m`, passed on through the layers, of which the first is the outermost. -/
def within (m : OpenError) (layers : List Layer) : OpenError :=
  layers.foldr (fun layer inner => layer.wrapping.around layer.path (.wrapped inner)) m

/-- A fault that is passed on keeps its wording. -/
theorem message_wrapped (m : OpenError) : (IoError.wrapped m).message = m.message :=
  IoError.message_of_code? rfl

/-- **The wording of a chain.** -/
theorem message_within (m : OpenError) (layers : List Layer) :
    (m.within layers).message = String.join (layers.map Layer.text) ++ m.message := by
  induction layers with
  | nil => simp [within]
  | cons layer layers ih =>
      have hhead : (m.within (layer :: layers)).message =
          layer.text ++ (m.within layers).message := by
        rw [← message_wrapped (m.within layers)]
        exact layer.wrapping.message_around layer.path (.wrapped (m.within layers))
      rw [hhead, ih, List.map_cons, String.join_cons, String.append_assoc]

/-- **The kind of a chain.** -/
theorem kind_within (m : OpenError) (layers : List Layer) :
    (m.within layers).kind = (layers.findSome? fun layer => layer.wrapping.kind?).getD m.kind := by
  induction layers with
  | nil => rfl
  | cons layer layers ih =>
      have hhead : (m.within (layer :: layers)).kind =
          layer.wrapping.kind?.getD (m.within layers).kind :=
        layer.wrapping.kind_around layer.path (.wrapped (m.within layers))
      rw [hhead, ih, List.findSome?_cons]
      cases layer.wrapping.kind? <;> rfl

/-- A fault that has not come from passing another one on. -/
def IsRoot (m : OpenError) : Prop := ∀ inner, m.cause? ≠ some (.wrapped inner)

omit [Platform] in
/-- A fault with a cause has been passed on in one of the four ways. -/
theorem exists_around {m : OpenError} {cause : IoError} (h : m.cause? = some cause) :
    ∃ w : Wrapping, m = w.around m.path cause := by
  cases m with
  | missing path cause => exact ⟨.missing, by cases h; rfl⟩
  | forbidden path cause => exact ⟨.forbidden, by cases h; rfl⟩
  | unopened path cause => exact ⟨.unopened, by cases h; rfl⟩
  | notRegular path => cases h
  | unmapped path cause => exact ⟨.unmapped, by cases h; rfl⟩

/-- **Every fault is a chain over a root.**  What a fault was passed on from is smaller than
the fault. -/
theorem exists_within (m : OpenError) :
    ∃ layers root, IsRoot root ∧ m = root.within layers := by
  by_cases hroot : IsRoot m
  · exact ⟨[], m, hroot, rfl⟩
  · obtain ⟨inner, hcause⟩ := not_forall_not.mp hroot
    obtain ⟨w, hm⟩ := exists_around hcause
    have hsmaller : sizeOf inner < sizeOf m := by
      rw [hm]
      cases w <;> simp only [Wrapping.around, missing.sizeOf_spec, forbidden.sizeOf_spec,
        unopened.sizeOf_spec, unmapped.sizeOf_spec, IoError.wrapped,
        IoError.holding.sizeOf_spec] <;> omega
    obtain ⟨layers, root, hroot, hinner⟩ := exists_within inner
    refine ⟨⟨w, m.path⟩ :: layers, root, hroot, ?_⟩
    rw [within, List.foldr_cons, ← within, ← hinner]
    exact hm
termination_by sizeOf m

end OpenError

/-- **The wording and the kind at any depth.**  Let no wording of the platform look as if it
ended with its number.  A fault that is passed on has the kind and the wording that it had,
and no number; as the cause of another fault it is shown behind the path of that one.  So
every fault is a root behind some number of layers, which give their paths in front of its
wording, and one of which may give the kind.  An error of the operating system is shown in
full with its number, which it loses, and it loses nothing else, whatever the wording in front
of the number, unless that itself looks as if it ended with it.  Any other fault loses
nothing, be it that it looks so. -/
theorem faults_keep_their_wording [Platform]
    (hplain : ∀ code : Int, ¬ (" (os error " ++ toString code ++ ")").toList <:+
      (Platform.text code).toList) :
    (∀ m : OpenError,
      (IoError.wrapped m).kind = m.kind ∧ (IoError.wrapped m).code? = none ∧
        (IoError.wrapped m).display = m.message ∧ (IoError.wrapped m).message = m.message ∧
        ∀ path, (OpenError.missing path (.wrapped m)).message =
            Utf8.lossy path ++ ": " ++ m.message ∧
          (OpenError.forbidden path (.wrapped m)).message =
            Utf8.lossy path ++ ": " ++ m.message ∧
          (OpenError.unopened path (.wrapped m)).message =
            Utf8.lossy path ++ ": " ++ m.message ∧
          (OpenError.unmapped path (.wrapped m)).message =
            Utf8.lossy path ++ ": " ++ "cannot map file: " ++ m.message) ∧
      (∀ m : OpenError, ∃ (layers : List Layer) (root : OpenError),
        root.IsRoot ∧ m = root.within layers ∧
          m.message = String.join (layers.map Layer.text) ++ root.message ∧
          m.kind = (layers.findSome? fun layer => layer.wrapping.kind?).getD root.kind) ∧
      (∀ code : Int, (IoError.os code).display =
          Platform.text code ++ " (os error " ++ toString code ++ ")" ∧
        (IoError.os code).message = Platform.text code) ∧
      (∀ (code : Int) text, ¬ (" (os error " ++ toString code ++ ")").toList <:+ text.toList →
        (IoError.os code).withoutCode (text ++ (" (os error " ++ toString code ++ ")")) = text) ∧
      (∀ e : IoError, e.code? = none → e.message = e.display) ∧
      ∀ kind text (code : Int),
        (IoError.custom kind (text ++ " (os error " ++ toString code ++ ")")).message =
          text ++ " (os error " ++ toString code ++ ")" := by
  refine ⟨?_, ?_, ?_, ?_, ?_, ?_⟩
  · intro m
    refine ⟨rfl, rfl, rfl, m.message_wrapped, ?_⟩
    intro path
    have hlayer : ∀ w : Wrapping, (w.around path (.wrapped m)).message =
        Utf8.lossy path ++ ": " ++ w.lead ++ m.message := by
      intro w
      rw [w.message_around, m.message_wrapped]
    refine ⟨?_, ?_, ?_, hlayer .unmapped⟩
    · simpa [Wrapping.around, Wrapping.lead] using hlayer .missing
    · simpa [Wrapping.around, Wrapping.lead] using hlayer .forbidden
    · simpa [Wrapping.around, Wrapping.lead] using hlayer .unopened
  · intro m
    obtain ⟨layers, root, hroot, rfl⟩ := m.exists_within
    exact ⟨layers, root, hroot, rfl, root.message_within layers, root.kind_within layers⟩
  · intro code
    exact ⟨rfl, IoError.message_os (hplain code)⟩
  · intro code text hend
    exact IoError.withoutCode_os hend
  · intro e he
    exact IoError.message_of_code? he
  · intro kind text code
    exact IoError.message_of_code? rfl

/-- An error of Linux is passed on twice and keeps its kind, until a layer gives another one.
A wording that only looks like that of an error of Linux keeps what looks like a number. -/
theorem faults_keep_their_wording_on_linux :
    let unmapped : OpenError := .unmapped [97] (.os 19)
    let passed : OpenError := .unopened [98] (.wrapped unmapped)
    let missing : OpenError := .missing [99] (.wrapped passed)
    (∀ code : Int, ¬ (" (os error " ++ toString code ++ ")").toList <:+
        (Platform.text code).toList) ∧
      (IoError.os 19).display = "No such device (os error 19)" ∧
      (IoError.wrapped missing).message = "c: " ++ (IoError.wrapped passed).message ∧
      (IoError.wrapped passed).message = "b: a: cannot map file: No such device" ∧
      (IoError.wrapped passed).kind = .uncategorized ∧
      (IoError.wrapped missing).kind = .notFound ∧
      (IoError.custom .other ("No such device" ++ " (os error " ++ toString (19 : Int) ++
        ")")).message = "No such device (os error 19)" := by
  intro unmapped passed missing
  obtain ⟨hpassed, -, hcodes, -, -, hcustom⟩ := faults_keep_their_wording Linux.text_plain
  obtain ⟨-, -, -, hmissing, -⟩ := hpassed missing
  obtain ⟨hkind, -, -, hmessage, hbehind⟩ := hpassed passed
  obtain ⟨-, -, -, hunmapped, hlayers⟩ := hpassed unmapped
  have hroot : unmapped.message = "a: cannot map file: No such device" := by
    have hcause : (IoError.os 19).message = "No such device" := (hcodes 19).2.trans (by decide)
    change Utf8.lossy [97] ++ ": cannot map file: " ++ (IoError.os 19).message = _
    rw [hcause]
    decide
  refine ⟨Linux.text_plain, ?_, ?_, ?_, ?_, ?_, hcustom _ _ 19⟩
  · rw [(hcodes 19).1]
    decide
  · rw [hmissing, hmessage]
    exact (hbehind [99]).1
  · rw [hmessage]
    refine (hlayers [98]).2.2.1.trans ?_
    rw [hroot]
    decide
  · rw [hkind]
    decide
  · decide

end Linewise
