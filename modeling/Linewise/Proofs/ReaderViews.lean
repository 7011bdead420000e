import Linewise.Proofs.ReaderStates
import Linewise.Proofs.Settling

/-!
# Looks at the whole file

A look at the whole file does not ask how far the scan has got.  As long as the reader has
not ended it is answered from the complete content, and from then on from nothing at all;
there is no state in which it would see a part of the file.  And it leaves no trace: in a
ledger of all that can be observed of a run, the entries of the other calls are what they
would be if nobody had looked.

* `Reader.ledger` — what is observed of a run: each answer, and the state after it;
* `Reader.Sound.bytes_eq` — **all of the content or nothing**;
* `Reader.ledger_views`, `Reader.ledger_filter` — looks in a row see the same, and looks may
  be left out of a run;
* `views_neither_heed_nor_move_the_scan` — **what looks see and what they leave.**
-/

namespace Linewise

variable {π : Type}

/-- Whether a call is a look at the whole file. -/
def Call.isView : Call π → Bool
  | pull _ => false
  | view _ => true
  | unmap => false

/-- All that can be observed of one call: the answer, and the state of the reader after
it. -/
structure Entry (π : Type) : Type 1 where
  call : Call π
  answer : call.Answer
  /-- The lines that are left to read. -/
  unread : List Bytes
  eof : Bool
  mapped : Bool
  length : Nat

namespace Reader

variable {content : Bytes} {r : Reader}

/-- The entry for a call that was given an answer, with `r` the reader after it. -/
def entry (r : Reader) (call : Call π) (answer : call.Answer) : Entry π :=
  ⟨call, answer, r.scan.rest, r.eof, r.isMapped, r.length⟩

/-- The entries for calls that are made one after the other. -/
def ledger (r : Reader) : List (Call π) → List (Entry π)
  | [] => []
  | call :: calls =>
      (r.serve call).2.entry call (r.serve call).1 :: (r.serve call).2.ledger calls

/-- Looks in a row are answered from the same bytes, and see the same state. -/
theorem ledger_views (r : Reader) (views : List (View π)) :
    r.ledger (views.map .view) = views.map fun v => r.entry (.view v) (v.of r.bytes) := by
  induction views with
  | nil => rfl
  | cons v views ih => exact congrArg _ ih

/-- **Looks may be left out.**  The entries of all other calls stay as they are. -/
theorem ledger_filter (r : Reader) (calls : List (Call π)) :
    (r.ledger calls).filter (fun entry => !entry.call.isView) =
      r.ledger (calls.filter fun call => !call.isView) := by
  induction calls generalizing r with
  | nil => rfl
  | cons call calls ih =>
      have hlater := ih (r.serve call).2
      cases call with
      | view v => exact hlater
      | pull p => exact congrArg _ hlater
      | unmap => exact congrArg _ hlater

/-- **Looks do not move the scan**, so the reader after a run is the same without them. -/
theorem run_filter (r : Reader) (calls : List (Call π)) :
    r.run (calls.filter fun call => !call.isView) = r.run calls := by
  induction calls generalizing r with
  | nil => rfl
  | cons call calls ih =>
      cases call with
      | view v => exact ih r
      | pull p => exact ih (r.pull p).2
      | unmap => exact ih r.unmap

/-- **All of the content or nothing.** -/
theorem Sound.bytes_eq (h : Sound content r) : r.bytes = if r.eof then [] else content := by
  cases h with
  | reading nonempty cut => rfl
  | ended => rfl

end Reader

/-- **Looks neither heed nor move the scan.**  Whatever calls were made before, looks at the
whole file are answered as on the complete content as long as the reader has not ended, and
as on no bytes once it has, and they find the same lines to read, the same end, mapping and
length as they leave.  A split comes to the same outcome in every order of steps, be it that
its visitors accept, fail or abort.  Of the calls that are made later, those that are no
looks are answered as they would be without the looks among them, and lead through the same
states. -/
theorem views_neither_heed_nor_move_the_scan [Platform] {files : FileSystem} {path : Path}
    {content : Bytes} {r : Reader} (hfile : files.Holds path content)
    (hopen : Reader.openFile files path = .ok r) (calls : List (Call π)) :
    let now := r.run calls
    let shown := if now.eof then [] else content
    (∀ views : List (View π), now.ledger (views.map .view) = views.map fun v =>
        ⟨.view v, v.of shown, now.scan.rest, now.eof, now.isMapped, now.length⟩) ∧
      (∀ {ε : Type} (opts : Options) (rule : SegmentRule ε π),
        join ((now.deliveries opts rule).map Delivery.outcome) = splitIndexed shown opts rule ∧
          Settles rule (fun c => c.heard = (deliveries shown opts rule).map Delivery.lines ∧
            c.outcome? = some (splitIndexed shown opts rule))
            (Crew.start (pieces now.bytes opts))) ∧
      ∀ more : List (Call π),
        (now.ledger more).filter (fun entry => !entry.call.isView) =
            now.ledger (more.filter fun call => !call.isView) ∧
          now.run more = now.run (more.filter fun call => !call.isView) := by
  intro now shown
  have hsound : Reader.Sound content now := (Reader.of_openFile hfile hopen).1.run calls
  have hbytes : now.bytes = shown := hsound.bytes_eq
  refine ⟨?_, ?_, ?_⟩
  · intro views
    rw [now.ledger_views views, hbytes]
    rfl
  · intro ε opts rule
    rw [Reader.deliveries, hbytes]
    exact ⟨rfl, settles_start shown opts rule⟩
  · intro more
    exact ⟨now.ledger_filter more, (now.run_filter more).symm⟩

/-- Behind its first line a reader still shows both lines, also to a split that a visitor
aborts, and the second line is what is read next.  Behind its end it shows nothing. -/
theorem views_neither_heed_nor_move_the_scan_behind_the_first_line :
    let content : Bytes := [97, 10, 98]
    let files : FileSystem := fun _ => .ok (.regular content)
    let r : Reader := ⟨⟨[120], some content⟩, some 0⟩
    let opts : Options := ⟨2, 0, by decide, by decide⟩
    let rule : SegmentRule Nat Nat := fun index _ line =>
      if index = 0 then .abort line.length else .fail line.length
    let looks : List (View Nat) := [.bytes, .countLines opts, .splitIndexed opts rule]
    let now := r.run [(.pull .getline : Call Nat)]
    let last := r.run [(.pull .getline : Call Nat), .pull .getline, .pull .getline]
    files.Holds [120] content ∧
      Reader.openFile files [120] = .ok r ∧
      now.ledger (looks.map .view) =
        [⟨.view .bytes, content, [[98]], false, true, 3⟩,
         ⟨.view (.countLines opts), (2 : Nat), [[98]], false, true, 3⟩,
         ⟨.view (.splitIndexed opts rule), [⟨[[97]], .aborted 1⟩, ⟨[[98]], .failed 1⟩],
          [[98]], false, true, 3⟩] ∧
      join ((now.deliveries opts rule).map Delivery.outcome) = .aborted 1 ∧
      (now.ledger (looks.map .view ++ [.pull .getline])).filter
          (fun entry => !entry.call.isView) = now.ledger [.pull .getline] ∧
      last.ledger ([View.countLines opts].map (Call.view (π := Nat))) =
        [⟨.view (.countLines opts), (0 : Nat), [], true, false, 0⟩] := by
  intro content files r opts rule looks now last
  have hfile : files.Holds [120] content := FileSystem.holds_of_regular rfl
  have hopen : Reader.openFile files [120] = .ok r := rfl
  obtain ⟨hlooks, hsplit, hmore⟩ :=
    views_neither_heed_nor_move_the_scan hfile hopen [(.pull .getline : Call Nat)]
  obtain ⟨hended, -⟩ := views_neither_heed_nor_move_the_scan hfile hopen
    [(.pull .getline : Call Nat), .pull .getline, .pull .getline]
  have hunread : now.scan.rest = [[98]] := by decide +kernel
  have hdeliveries : deliveries content opts rule =
      [⟨[[97]], .aborted 1⟩, ⟨[[98]], .failed 1⟩] := by decide +kernel
  have houtcome : splitIndexed content opts rule = .aborted 1 := by decide +kernel
  have hcount : countLines content opts = 2 := by decide +kernel
  refine ⟨hfile, hopen, ?_, ?_, (hmore _).1, ?_⟩
  · refine (hlooks looks).trans ?_
    have hshown : (if now.eof then [] else content) = content := rfl
    simp only [looks, List.map_cons, List.map_nil, View.of]
    rw [hunread, hshown, hcount, hdeliveries]
    rfl
  · exact (hsplit opts rule).1.trans houtcome
  · have hretired : last = ⟨⟨[120], none⟩, none⟩ := by decide +kernel
    have hnothing : last.scan.rest = [] := by decide +kernel
    have hnone : countLines [] opts = 0 := by decide +kernel
    refine (hended _).trans ?_
    change [(⟨.view (.countLines opts), countLines (if last.eof then [] else content) opts,
      last.scan.rest, last.eof, last.isMapped, last.length⟩ : Entry Nat)] = _
    rw [hnothing, hretired]
    change [(⟨.view (.countLines opts), countLines [] opts, [], true, false, 0⟩ : Entry Nat)] = _
    rw [hnone]

end Linewise
