import Linewise.Fault.Linux
import Linewise.Proofs.ReaderStates
import Linewise.Source.Opening

/-!
# Classes of paths

How the opening of a path ends depends on three answers: what is said to the request to open
the path, whether what has been opened is a regular file, and which size is told.  They are
looked at in this order.  So a device of no size is no empty file, and a directory is never
said to be a file that cannot be mapped.

Whether quiet attempts go on does not matter to a host that refuses them to some and answers
a plain attempt in the same way to all.

* `OpenError.ofCause_eq_missing_iff` and its siblings — the kind of the cause is the variant;
* `Opened.Serves` — something opened keeps its word;
* `Source.path_openOn` — the path is never another than the one that was asked for;
* `FileSystem.answers_host` — **quiet attempts do not show**, whatever is opened before;
* `openOn_classifies_paths` — **what becomes of any path**.
-/

namespace Linewise

namespace OpenError

variable [Platform] {path : Path} {cause : IoError}

/-- A path is said to be missing exactly if the cause is of this kind. -/
theorem ofCause_eq_missing_iff :
    ofCause path cause = .missing path cause ↔ cause.kind = .notFound := by
  unfold ofCause
  split <;> simp_all

/-- A path is said to be forbidden exactly if the cause is of this kind. -/
theorem ofCause_eq_forbidden_iff :
    ofCause path cause = .forbidden path cause ↔ cause.kind = .permissionDenied := by
  unfold ofCause
  split <;> simp_all

/-- All other causes leave it at that. -/
theorem ofCause_eq_unopened_iff :
    ofCause path cause = .unopened path cause ↔
      cause.kind ≠ .notFound ∧ cause.kind ≠ .permissionDenied := by
  unfold ofCause
  split <;> simp_all

@[simp] theorem path_ofCause : (ofCause path cause).path = path := by
  unfold ofCause
  split <;> rfl

end OpenError

/-- Something opened keeps its word: it tells what it is, and if it is a regular file, that
its bytes are as many as `content`, which can also be mapped if there are any. -/
structure Opened.Serves (file : Opened) (content : Bytes) : Prop where
  told : ∃ status, file.status = .ok status
  size_eq : ∀ status, file.status = .ok status → status.isRegular = true →
    status.size = content.length
  mapped : ∀ status, file.status = .ok status → status.isRegular = true →
    content ≠ [] → file.map status.size = .ok content

namespace Source

variable [Platform] {path : Path} {file : Opened}

/-- **A regular file** that keeps its word is mapped whole, unless it is empty. -/
theorem ofOpened_regular {content : Bytes} {status : Status} (hserves : file.Serves content)
    (hstatus : file.status = .ok status) (hkind : status.isRegular = true) :
    ofOpened path file = .ok (whole path content) := by
  have hsize := hserves.size_eq status hstatus hkind
  have hmapped := hserves.mapped status hstatus hkind
  obtain ⟨isRegular, size⟩ := status
  obtain rfl : isRegular = true := hkind
  obtain rfl : size = content.length := hsize
  by_cases hempty : content = []
  · exact ofOpened_of_holds ⟨hstatus, fun hne => absurd hempty hne⟩ (by rw [hempty]; decide)
  · have hlength := Opened.length_of_map (hmapped hempty)
    refine ofOpened_of_holds ⟨hstatus, fun hne => ?_⟩ hlength.2
    rw [← Opened.map_of_lt hlength.2]
    exact hmapped hne

/-- Whatever has been opened, the path is the one that was asked for. -/
theorem path_ofOpened :
    (∀ m, ofOpened path file = .error m → m.path = path) ∧
      ∀ s, ofOpened path file = .ok s → s.path = path := by
  unfold ofOpened
  split
  · simp
  · split
    · simp [OpenError.path]
    · split
      · simp
      · split <;> simp [OpenError.path]

variable {host : Host} {quiet : Bool}

/-- A host's answer that counts is treated like that of any file system. -/
theorem openOn_eq : (openOn host quiet path).1 = openFile (host.answer quiet) path := rfl

/-- **The path is the one that was asked for**, whatever it leads to. -/
theorem path_openOn (host : Host) (quiet : Bool) (path : Path) :
    (∀ m, (openOn host quiet path).1 = .error m → m.path = path) ∧
      ∀ s, (openOn host quiet path).1 = .ok s → s.path = path := by
  rw [openOn_eq, openFile]
  cases host.answer quiet path with
  | error e => simp [ofAnswer]
  | ok file => exact path_ofOpened

end Source

namespace Reader

/-- A reader has ended from the start if there is nothing to read. -/
theorem eof_ofSource (s : Source) : (ofSource s).eof = true ↔ s.bytes = [] := by
  cases hbytes : s.bytes with
  | nil => simp [ofSource, eof, Source.isEmpty, Source.length, hbytes]
  | cons b bs => simp [ofSource, eof, Source.isEmpty, Source.length, hbytes]

variable [Platform] {host : Host} {quiet : Bool} {path : Path}

/-- A path that gives no source gives no reader. -/
theorem openOn_of_error {m : OpenError} (h : (Source.openOn host quiet path).1 = .error m) :
    (openOn host quiet path).1 = .error m := by
  rw [openOn, h]
  rfl

/-- A path that gives a source gives the reader before its first line. -/
theorem openOn_of_ok {s : Source} (h : (Source.openOn host quiet path).1 = .ok s) :
    (openOn host quiet path).1 = .ok (ofSource s) := by
  rw [openOn, h]
  rfl

/-- **The path is the one that was asked for**, of a reader as of a source. -/
theorem path_openOn (host : Host) (quiet : Bool) (path : Path) :
    (∀ m, (openOn host quiet path).1 = .error m → m.path = path) ∧
      ∀ r, (openOn host quiet path).1 = .ok r → r.path = path := by
  obtain ⟨herror, hok⟩ := Source.path_openOn host quiet path
  cases hsource : (Source.openOn host quiet path).1 with
  | error m =>
      rw [openOn_of_error hsource]
      simpa using herror m hsource
  | ok s =>
      rw [openOn_of_ok hsource]
      simpa [Reader.path, ofSource] using hok s hsource

end Reader

/-! ## Hosts that answer as a file system does -/

namespace FileSystem

variable (files : FileSystem) (owned : Path → Bool)

/-- Whether an attempt is quiet does not show in the answer. -/
theorem answer_host (quiet : Bool) (path : Path) :
    (files.host owned).answer quiet path = files path := by
  cases quiet with
  | false => rfl
  | true =>
      -- A quiet attempt is refused only at somebody else's file, and then a plain one is made.
      cases howned : owned path with
      | false =>
          simp [Host.answer, Host.openForMapping, Host.notPermitted, host, howned,
            IoError.code?]
      | true =>
          have hquiet : (files.host owned).request true path = files path := by
            simp [host, howned]
          have hplain : (files.host owned).request false path = files path := rfl
          simp only [Host.answer, Host.openForMapping, hquiet, hplain, if_true]
          cases files path with
          | error e => by_cases hrefused : e.code? = some Host.notPermitted <;> simp [hrefused]
          | ok file => rfl

/-- **Quiet attempts do not show.**  Many paths that are opened one after the other are
answered as if each of them were opened alone, whenever the quiet attempts end. -/
theorem answers_host (quiet : Bool) (paths : List Path) :
    (files.host owned).answers quiet paths = paths.map files := by
  induction paths generalizing quiet with
  | nil => rfl
  | cons path paths ih => rw [Host.answers, answer_host, ih, List.map_cons]

end FileSystem

/-! ## All paths -/

/-- **What becomes of any path.**  Let what has been opened tell what it is, and let a regular
file with bytes in it be mapped.  If the path is answered by an error, then neither a source
nor a reader is opened: the fault has the kind of the answer, the variant for that kind, and
the path in front of the answer's wording.  If something else than a regular file has been
opened, that is the fault, be its size none and its mapping refused.  And a regular file is
opened with exactly its bytes, mapped if there are any, at the end if there are none.  The path
shown is always the one asked for.  And a host that answers as a file system does opens what
that opens, whoever owns the files. -/
theorem openOn_classifies_paths [Platform] {host : Host} {content : Opened → Bytes} {quiet : Bool}
    {path : Path}
    (hserves : ∀ file, host.answer quiet path = .ok file → file.Serves (content file)) :
    (∀ e, host.answer quiet path = .error e →
        ∃ m, (Source.openOn host quiet path).1 = .error m ∧
          (Reader.openOn host quiet path).1 = .error m ∧ m.kind = e.kind ∧
          (m = .missing path e ↔ e.kind = .notFound) ∧
          (m = .forbidden path e ↔ e.kind = .permissionDenied) ∧
          (m = .unopened path e ↔ e.kind ≠ .notFound ∧ e.kind ≠ .permissionDenied) ∧
          m.message = Utf8.lossy path ++ ": " ++ e.message) ∧
      (∀ file, host.answer quiet path = .ok file →
        ∃ status, file.status = .ok status ∧
          (status.isRegular = false →
            (Source.openOn host quiet path).1 = .error (.notRegular path) ∧
              (Reader.openOn host quiet path).1 = .error (.notRegular path)) ∧
          (status.isRegular = true →
            ∃ s r, (Source.openOn host quiet path).1 = .ok s ∧
              (Reader.openOn host quiet path).1 = .ok r ∧
              s.bytes = content file ∧ r.bytes = content file ∧
              (s.isMapped = true ↔ content file ≠ []) ∧
              (r.isMapped = true ↔ content file ≠ []) ∧
              (r.eof = true ↔ content file = []))) ∧
      (∀ m, (Source.openOn host quiet path).1 = .error m → m.path = path) ∧
      (∀ s, (Source.openOn host quiet path).1 = .ok s → s.path = path) ∧
      (∀ m, (Reader.openOn host quiet path).1 = .error m → m.path = path) ∧
      (∀ r, (Reader.openOn host quiet path).1 = .ok r → r.path = path) ∧
      ∀ (files : FileSystem) (owned : Path → Bool),
        (files.host owned).answer quiet path = files path ∧
          (Source.openOn (files.host owned) quiet path).1 = Source.openFile files path ∧
          (Reader.openOn (files.host owned) quiet path).1 = Reader.openFile files path := by
  obtain ⟨hsourceError, hsourceOk⟩ := Source.path_openOn host quiet path
  obtain ⟨hreaderError, hreaderOk⟩ := Reader.path_openOn host quiet path
  refine ⟨?_, ?_, hsourceError, hsourceOk, hreaderError, hreaderOk, ?_⟩
  · intro e he
    have hsource : (Source.openOn host quiet path).1 = .error (OpenError.ofCause path e) := by
      rw [Source.openOn_eq, Source.openFile, he]
      rfl
    exact ⟨OpenError.ofCause path e, hsource, Reader.openOn_of_error hsource,
      OpenError.kind_ofCause path e, OpenError.ofCause_eq_missing_iff,
      OpenError.ofCause_eq_forbidden_iff, OpenError.ofCause_eq_unopened_iff,
      OpenError.message_ofCause path e⟩
  · intro file hfile
    obtain ⟨status, hstatus⟩ := (hserves file hfile).told
    have hsource : (Source.openOn host quiet path).1 = Source.ofOpened path file := by
      rw [Source.openOn_eq, Source.openFile, hfile]
      rfl
    refine ⟨status, hstatus, ?_, ?_⟩
    · intro hkind
      rw [Source.ofOpened_irregular hstatus hkind] at hsource
      exact ⟨hsource, Reader.openOn_of_error hsource⟩
    · intro hkind
      rw [Source.ofOpened_regular (hserves file hfile) hstatus hkind] at hsource
      have hbytes := Source.bytes_whole path (content file)
      have hmapped := Source.isMapped_whole path (content file)
      have hend := Reader.eof_ofSource (.whole path (content file))
      rw [hbytes] at hend
      exact ⟨.whole path (content file), .ofSource (.whole path (content file)), hsource,
        Reader.openOn_of_ok hsource, hbytes, hbytes, hmapped, hmapped, hend⟩
  · intro files owned
    have hanswer := files.answer_host owned quiet path
    have hsource : (Source.openOn (files.host owned) quiet path).1 =
        Source.openFile files path := by
      rw [Source.openOn_eq, Source.openFile, Source.openFile, hanswer]
    refine ⟨hanswer, hsource, ?_⟩
    rw [Reader.openOn, hsource, Reader.openFile]

/-- A device without a size is no empty file, and a file of somebody else's is opened. -/
theorem openOn_classifies_paths_of_a_device :
    let device : Opened := .refusing ⟨false, 0⟩ .noSuchDevice
    let file : Opened := .regular [104, 10]
    let files : FileSystem := fun path => if path = [100] then .ok device else .ok file
    let host := files.host fun _ => false
    device.Serves [] ∧ file.Serves [104, 10] ∧
      (Source.openOn host true [100]).1 = .error (.notRegular [100]) ∧
      ∃ r, (Reader.openOn host true [97]).1 = .ok r ∧ r.path = [97] ∧ r.bytes = [104, 10] ∧
        r.isMapped = true ∧ r.eof ≠ true := by
  intro device file files host
  have hdeviceServes : device.Serves [] :=
    ⟨⟨_, rfl⟩, by rintro _ ⟨⟩ ⟨⟩, by rintro _ ⟨⟩ ⟨⟩⟩
  have hfileServes : file.Serves [104, 10] := by
    refine ⟨⟨_, rfl⟩, ?_, ?_⟩
    · rintro _ ⟨⟩ -
      rfl
    · rintro _ ⟨⟩ - -
      rfl
  have hanswerDevice : host.answer true [100] = .ok device := files.answer_host _ true [100]
  have hanswerFile : host.answer true [97] = .ok file := files.answer_host _ true [97]
  have hdevice : ∀ opened, host.answer true [100] = .ok opened → opened.Serves [] := by
    intro opened hopened
    rw [files.answer_host] at hopened
    cases hopened
    exact hdeviceServes
  have hfile : ∀ opened, host.answer true [97] = .ok opened → opened.Serves [104, 10] := by
    intro opened hopened
    rw [files.answer_host] at hopened
    cases hopened
    exact hfileServes
  obtain ⟨-, hirregular, -⟩ := openOn_classifies_paths hdevice
  obtain ⟨-, hregular, -, -, -, hpath, -⟩ := openOn_classifies_paths hfile
  obtain ⟨status, hstatus, hrefused, -⟩ := hirregular device (files.answer_host _ true [100])
  obtain ⟨told, htold, -, hopens⟩ := hregular file (files.answer_host _ true [97])
  cases hstatus
  cases htold
  obtain ⟨s, r, -, hr, -, hbytes, -, hmapped, hend⟩ := hopens rfl
  refine ⟨hdeviceServes, hfileServes, (hrefused rfl).1, r, hr, hpath r hr, hbytes,
    hmapped.mpr (by decide), ?_⟩
  rw [Ne, hend]
  decide

end Linewise
