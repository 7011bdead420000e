import Linewise.Fault

/-!
# Opened files

The operating system answers a request to open a path either by an error or by
something opened.  What that is, how long it is, and whether its bytes can be
mapped into memory shows only when it is asked for, and each of these requests
may be answered by an error of its own.  So something opened is known by its
answers.

* `Opened` — something opened: its status, and the mappings of its first bytes.
  A mapping is as long as was asked for;
* `FileSystem` — the answers to the requests to open a path;
* `Opened.map` — map the first bytes, unless no address reaches their end;
* `Opened.regular`, `Opened.refusing` — a file that can be mapped, and something
  that cannot, be it a directory, a device, or a file without mappings;
* `Opened.Holds`, `FileSystem.Holds` — what answers as a regular file with some
  content does.
-/

namespace Linewise

/-- What is told about something opened. -/
structure Status where
  isRegular : Bool
  size : Nat
  deriving Repr, DecidableEq

/-- Something opened, as far as it answers. -/
structure Opened where
  status : Except IoError Status
  /-- So many bytes from the first one on, brought into memory. -/
  mapping : Nat → Except IoError Bytes
  length_mapping : ∀ {size : Nat} {bytes : Bytes}, mapping size = .ok bytes → bytes.length = size

/-- The answers of the operating system to requests to open a path. -/
abbrev FileSystem := Path → Except IoError Opened

/-- The number of bytes that an address can name. -/
def addressSpace : Nat := Nat.pow 2 64

/-- The length of a mapping for a file of `size` bytes.  A size that no address
reaches is refused, never cut down. -/
def mappingLength (size : Nat) : Except IoError Nat :=
  if size < addressSpace then .ok size
  else .error (.custom .fileTooLarge
    ("file of " ++ toString size ++ " bytes does not fit in the address space"))

/-- A size that an address reaches is a length. -/
theorem mappingLength_of_lt {size : Nat} (h : size < addressSpace) :
    mappingLength size = .ok size :=
  if_pos h

namespace Opened

/-- Map the first `size` bytes of what was opened. -/
def map (file : Opened) (size : Nat) : Except IoError Bytes :=
  match mappingLength size with
  | .error e => .error e
  | .ok length => file.mapping length

/-- A regular file that can be mapped.  Behind its end a mapping shows zeros. -/
def regular (content : Bytes) : Opened where
  status := .ok ⟨true, content.length⟩
  mapping size := .ok ((content.take size).rightpad size 0)
  length_mapping := by
    rintro size _ ⟨⟩
    rw [List.length_rightpad, List.length_take]
    omega

/-- Something that refuses to be mapped. -/
def refusing (status : Status) (refusal : IoError) : Opened where
  status := .ok status
  mapping _ := .error refusal
  length_mapping h := by cases h

/-- What can be mapped is mapped as if no address were looked at. -/
theorem map_of_lt {file : Opened} {size : Nat} (h : size < addressSpace) :
    file.map size = file.mapping size := by
  rw [map, mappingLength_of_lt h]

/-- **A mapping has as many bytes as were asked for**, and each of them has an address. -/
theorem length_of_map {file : Opened} {size : Nat} {bytes : Bytes}
    (h : file.map size = .ok bytes) : bytes.length = size ∧ size < addressSpace := by
  by_cases hsize : size < addressSpace
  · rw [map_of_lt hsize] at h
    exact ⟨file.length_mapping h, hsize⟩
  · simp [map, mappingLength, hsize] at h

/-- What answers as a regular file with `content` does: it tells how many bytes these are,
and maps them if there are any. -/
structure Holds (file : Opened) (content : Bytes) : Prop where
  status_eq : file.status = .ok ⟨true, content.length⟩
  mapping_eq : content ≠ [] → file.mapping content.length = .ok content

/-- A regular file that can be mapped holds its content. -/
theorem holds_regular (content : Bytes) : (regular content).Holds content where
  status_eq := rfl
  mapping_eq _ := by simp [regular, List.rightpad]

/-- An answer holds no other content than this one. -/
theorem Holds.unique {file : Opened} {content other : Bytes} (h : file.Holds content)
    (hother : file.Holds other) : content = other := by
  have hlength : content.length = other.length := by
    simpa using h.status_eq.symm.trans hother.status_eq
  cases content with
  | nil => exact (List.eq_nil_of_length_eq_zero hlength.symm).symm
  | cons b bs =>
      have hne : other ≠ [] := by
        rintro rfl
        cases hlength
      have hmapped := h.mapping_eq (List.cons_ne_nil b bs)
      rw [hlength, hother.mapping_eq hne] at hmapped
      cases hmapped
      rfl

end Opened

/-- A path leads to a regular file with `content`. -/
def FileSystem.Holds (files : FileSystem) (path : Path) (content : Bytes) : Prop :=
  ∃ file, files path = .ok file ∧ file.Holds content

/-- So does a path that leads to one. -/
theorem FileSystem.holds_of_regular {files : FileSystem} {path : Path} {content : Bytes}
    (h : files path = .ok (.regular content)) : files.Holds path content :=
  ⟨_, h, Opened.holds_regular content⟩

/-- A path holds one content at most. -/
theorem FileSystem.Holds.unique {files : FileSystem} {path : Path} {content other : Bytes}
    (h : files.Holds path content) (hother : files.Holds path other) : content = other := by
  obtain ⟨file, hfile, hholds⟩ := h
  obtain ⟨_, hother, hothers⟩ := hother
  rw [hfile] at hother
  cases hother
  exact hholds.unique hothers

end Linewise
