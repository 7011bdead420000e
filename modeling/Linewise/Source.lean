import Linewise.File

/-!
# Sources

A source is a regular file whose bytes are mapped into memory.  An empty file
has nothing to map, so its source is unmapped from the start.  A source can be
unmapped at any time; after that it shows no bytes.

* `Source.ofOpened` — the source for something opened.  It is asked for what it
  is, then for its size, and only then mapped, and the first answer that is an
  error decides;
* `Source.ofAnswer`, `Source.openFile` — the same from the answer to the request
  to open a path, and from a file system;
* `Source.bytes` — the mapped bytes;
* `Source.openFile_eq_ok_iff` — **which paths give a source, and which source.**
-/

namespace Linewise

/-- The mapping of one file. -/
structure Source where
  path : Path
  /-- The mapped bytes, while there is a mapping. -/
  mapping : Option Bytes
  deriving Repr, DecidableEq

namespace Source

/-- The mapped bytes, none if there is no mapping. -/
def bytes (s : Source) : Bytes := s.mapping.getD []

/-- The number of mapped bytes. -/
def length (s : Source) : Nat := s.bytes.length

/-- Whether the source shows no bytes. -/
def isEmpty (s : Source) : Bool := s.length == 0

/-- Whether there is a mapping. -/
def isMapped (s : Source) : Bool := s.mapping.isSome

/-- Give the mapping up. -/
def unmap (s : Source) : Source := { s with mapping := none }

/-- The source of a file with `content`, of which none is mapped if there is none. -/
def whole (path : Path) (content : Bytes) : Source :=
  ⟨path, if content = [] then none else some content⟩

@[simp] theorem bytes_unmap (s : Source) : s.unmap.bytes = [] := rfl

@[simp] theorem isMapped_unmap (s : Source) : s.unmap.isMapped = false := rfl

@[simp] theorem path_unmap (s : Source) : s.unmap.path = s.path := rfl

@[simp] theorem bytes_whole (path : Path) (content : Bytes) :
    (whole path content).bytes = content := by
  by_cases hempty : content = [] <;> simp [whole, bytes, hempty]

@[simp] theorem isMapped_whole (path : Path) (content : Bytes) :
    (whole path content).isMapped = true ↔ content ≠ [] := by
  by_cases hempty : content = [] <;> simp [whole, isMapped, hempty]

/-! ## Opening -/

section

variable [Platform]

/-- The source for `path`, given what has been opened. -/
def ofOpened (path : Path) (file : Opened) : Except OpenError Source :=
  match file.status with
  | .error e => .error (OpenError.ofCause path e)
  | .ok status =>
      if !status.isRegular then .error (.notRegular path)
      else if status.size = 0 then .ok ⟨path, none⟩
      else match file.map status.size with
        | .error e => .error (.unmapped path e)
        | .ok bytes => .ok ⟨path, some bytes⟩

/-- The source for `path`, given what the request to open it was answered. -/
def ofAnswer (path : Path) : Except IoError Opened → Except OpenError Source
  | .error e => .error (OpenError.ofCause path e)
  | .ok file => ofOpened path file

/-- The source for a path in a file system. -/
def openFile (files : FileSystem) (path : Path) : Except OpenError Source :=
  ofAnswer path (files path)

/-- **What is not a regular file** is refused as such, whatever its size and its mapping. -/
theorem ofOpened_irregular {path : Path} {file : Opened} {status : Status}
    (hstatus : file.status = .ok status) (hkind : status.isRegular = false) :
    ofOpened path file = .error (.notRegular path) := by
  simp [ofOpened, hstatus, hkind]

/-- A regular file is mapped whole, unless it is empty. -/
theorem ofOpened_of_holds {path : Path} {file : Opened} {content : Bytes}
    (h : file.Holds content) (hsize : content.length < addressSpace) :
    ofOpened path file = .ok (whole path content) := by
  by_cases hempty : content = []
  · simp [ofOpened, h.status_eq, hempty, whole]
  · have hmapped : file.map content.length = .ok content :=
      (Opened.map_of_lt hsize).trans (h.mapping_eq hempty)
    simp [ofOpened, h.status_eq, hempty, hmapped, whole]

/-- **Only a regular file gives a source**, and each byte of it has an address. -/
theorem holds_of_ofOpened {path : Path} {file : Opened} {source : Source}
    (h : ofOpened path file = .ok source) :
    ∃ content, file.Holds content ∧ content.length < addressSpace ∧
      source = whole path content := by
  unfold ofOpened at h
  split at h
  · cases h
  · next status hstatus =>
      split at h
      · cases h
      · next hregular =>
          obtain ⟨isRegular, size⟩ := status
          obtain rfl : isRegular = true := by simpa using hregular
          split at h
          · next hempty =>
              cases h
              obtain rfl : size = 0 := hempty
              exact ⟨[], ⟨hstatus, fun hne => absurd rfl hne⟩, by decide, rfl⟩
          · next hsome =>
              split at h
              · cases h
              · next bytes hmap =>
                  cases h
                  obtain ⟨rfl, hsize⟩ := Opened.length_of_map hmap
                  have hne : bytes ≠ [] := by simpa using hsome
                  rw [Opened.map_of_lt hsize] at hmap
                  exact ⟨bytes, ⟨hstatus, fun _ => hmap⟩, hsize, by simp [whole, hne]⟩

/-- **Which paths give a source, and which source.**  A path must lead to a regular file, and
each byte of the file must have an address.  Then the source shows exactly these bytes. -/
theorem openFile_eq_ok_iff {files : FileSystem} {path : Path} {source : Source} :
    openFile files path = .ok source ↔
      ∃ content, files.Holds path content ∧ content.length < addressSpace ∧
        source = whole path content := by
  constructor
  · intro h
    unfold openFile at h
    cases hfile : files path with
    | error e =>
        rw [hfile] at h
        cases h
    | ok file =>
        rw [hfile] at h
        obtain ⟨content, hholds, hsize, hsource⟩ := holds_of_ofOpened h
        exact ⟨content, ⟨file, hfile, hholds⟩, hsize, hsource⟩
  · rintro ⟨content, ⟨file, hfile, hholds⟩, hsize, rfl⟩
    rw [openFile, hfile]
    exact ofOpened_of_holds hholds hsize

end

end Source

end Linewise
