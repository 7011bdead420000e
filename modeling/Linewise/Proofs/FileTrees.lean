import Linewise.FileTree
import Linewise.Proofs.ReaderStates

/-!
# Files in a tree

What opening a path of a tree comes to is decided by the place where the walk along the path
ends.  A file gives a reader of its bytes; anything else, and a walk that does not get there,
gives an error.

A file that is written is changed at one place.  No walk goes on behind a file or behind a
name that is free, so a walk either ends at this place or never comes by it.  That is why all
paths that lead there, through whatever links, show what has been written, and all that lead
anywhere else show what they showed before.

* `FileTree.at?_enter`, `FileTree.at?_of_unlink` — what stands at each place after an entry
  has been made, and after one has been taken out;
* `FileTree.holds_iff`, `Reader.openFile_tree_iff` — **a path gives a reader exactly if it leads
  to a file**;
* `FileTree.Leads` — a walk that comes to its end, by its steps;
* `FileTree.walk_eq_ok_iff` — no other walks succeed;
* `FileTree.Writable` — what a file may be written over;
* `FileTree.Leads.enter` — a walk after a file has been written;
* `FileTree.openFile_of_write` — **what is written is read, and no other file changes.**
-/

namespace Linewise

namespace FileTree

variable {tree : FileTree} {place : List Name}

/-! ## Entries -/

/-- An entry that is taken out is missed at its own place only. -/
theorem lookup_filter (entries : List (List Name × Node)) (place other : List Name) :
    (entries.filter fun entry => entry.1 ≠ place).lookup other =
      if other = place then none else entries.lookup other := by
  induction entries with
  | nil => simp
  | cons entry entries ih =>
      obtain ⟨key, node⟩ := entry
      by_cases hkey : key = place
      · rw [List.filter_cons_of_neg (by simpa using hkey), ih, List.lookup_cons]
        by_cases hother : other = place
        · rw [if_pos hother, if_pos hother]
        · rw [if_neg hother, if_neg hother, hkey, beq_false_of_ne hother]
      · rw [List.filter_cons_of_pos (by simpa using hkey), List.lookup_cons, List.lookup_cons, ih]
        by_cases hother : other = key
        · simp [hother, hkey]
        · rw [beq_false_of_ne hother]

/-- **What is entered stands at its place**, and everything else where it stood. -/
theorem at?_enter (hplace : place ≠ []) (node : Node) (other : List Name) :
    (tree.enter place node).at? other = if other = place then some node else tree.at? other := by
  unfold at? enter
  by_cases hroot : other = []
  · simp [hroot, hplace.symm]
  · by_cases hother : other = place
    · simp [hother, hplace]
    · have hrest := lookup_filter tree.entries place other
      rw [if_neg hother] at hrest
      simpa [hroot, hother, List.lookup_cons, beq_false_of_ne hother] using hrest

/-- **An unlinked name is free**, and everything else stands where it stood. -/
theorem at?_of_unlink {path : Path} {next : FileTree} (h : tree.unlink path = some next) :
    ∃ place, tree.placeOf? path = some place ∧ ∀ other, other ≠ [] →
      next.at? other = if other = place then none else tree.at? other := by
  unfold unlink at h
  split at h
  · cases h
  · next place hplace =>
      refine ⟨place, hplace, fun other hroot => ?_⟩
      split at h
      · cases h
      · cases h
      · cases h
        simpa [at?, hroot] using lookup_filter tree.entries place other

/-! ## Opening -/

/-- **A path holds a content** exactly if it leads to a file with this content. -/
theorem holds_iff {path : Path} {content : Bytes} :
    tree.openFile.Holds path content ↔
      ∃ place, tree.resolve path = .ok (place, some (.file content)) := by
  constructor
  · intro h
    obtain ⟨opened, hopen, hholds⟩ := h
    unfold openFile at hopen
    split at hopen
    · cases hopen
    · cases hopen
    · next place found hresolve =>
        cases hopen
        rw [hholds.unique (Opened.holds_regular found)]
        exact ⟨place, hresolve⟩
    · cases hopen
      cases hholds.status_eq
    · cases hopen
      cases hholds.status_eq
    · cases hopen
    · cases hopen
  · intro h
    obtain ⟨place, hresolve⟩ := h
    apply FileSystem.holds_of_regular
    simp [openFile, hresolve]

end FileTree

/-- **A path gives a reader exactly if it leads to a file** whose bytes have addresses, and the
reader is about to read these bytes. -/
theorem Reader.openFile_tree_iff [Platform] {tree : FileTree} {path : Path} {r : Reader} :
    Reader.openFile tree.openFile path = .ok r ↔
      ∃ place content, tree.resolve path = .ok (place, some (.file content)) ∧
        content.length < addressSpace ∧ r = .ofSource (.whole path content) := by
  rw [Reader.openFile_eq_ok_iff]
  constructor
  · intro h
    obtain ⟨content, hholds, hsize, hreader⟩ := h
    obtain ⟨place, hresolve⟩ := FileTree.holds_iff.mp hholds
    exact ⟨place, content, hresolve, hsize, hreader⟩
  · intro h
    obtain ⟨place, content, hresolve, hsize, hreader⟩ := h
    exact ⟨content, FileTree.holds_iff.mpr ⟨place, hresolve⟩, hsize, hreader⟩

namespace FileTree

variable {tree : FileTree}

/-! ## Walks -/

/-- **A walk that comes to its end**, with so many links left to follow, from a node at a place
along some names to what stands at its last place.  Only a directory is gone on from. -/
inductive Leads (tree : FileTree) :
    Nat → List Name → Node → List Name → List Name → Option Node → Prop
  /-- All names are used up. -/
  | here {links : Nat} {place : List Name} {node : Node} :
      Leads tree links place node [] place (some node)
  /-- A name of the directory itself. -/
  | stay {links : Nat} {place names last : List Name} {name : Name} {found : Option Node}
      (itself : name = [] ∨ name = [dot])
      (later : Leads tree links place .directory names last found) :
      Leads tree links place .directory (name :: names) last found
  /-- The name of the directory above. -/
  | up {links : Nat} {place names last : List Name} {found : Option Node}
      (later : Leads tree links place.dropLast .directory names last found) :
      Leads tree links place .directory ([dot, dot] :: names) last found
  /-- A last name that is free. -/
  | free {links : Nat} {place : List Name} {name : Name} (entry : isEntryName name = true)
      (nothing : tree.at? (place ++ [name]) = none) :
      Leads tree links place .directory [name] (place ++ [name]) none
  /-- The name of a link, which is followed. -/
  | link {links : Nat} {place names last : List Name} {name : Name} {found : Option Node}
      {target : Path} (entry : isEntryName name = true)
      (there : tree.at? (place ++ [name]) = some (.link target))
      (later : Leads tree links (origin place target) .directory (components target ++ names)
        last found) :
      Leads tree (links + 1) place .directory (name :: names) last found
  /-- The name of anything else. -/
  | into {links : Nat} {place names last : List Name} {name : Name} {found : Option Node}
      {next : Node} (entry : isEntryName name = true)
      (there : tree.at? (place ++ [name]) = some next) (noLink : ∀ target, next ≠ .link target)
      (later : Leads tree links (place ++ [name]) next names last found) :
      Leads tree links place .directory (name :: names) last found

variable {links : Nat} {start names last place : List Name} {node : Node} {found : Option Node}

/-- A name that is none of the special ones, and not too long, can stand for an entry. -/
theorem isEntryName_iff {name : Name} : isEntryName name = true ↔
    ¬ (name = [] ∨ name = [dot]) ∧ name ≠ [dot, dot] ∧ ¬ nameLimit < name.length := by
  simp [isEntryName, not_or, and_assoc]

/-- A walk that succeeds takes these steps. -/
theorem leads_of_walk (h : tree.walk links start node names = .ok (last, found)) :
    Leads tree links start node names last found := by
  fun_induction tree.walk links start node names with
  | case1 =>
      cases h
      exact .here
  | case2 => cases h
  | case3 links place node name names hnode hitself ih =>
      obtain rfl : node = .directory := not_not.mp hnode
      exact .stay hitself (ih h)
  | case4 links place node names hnode hspecial ih =>
      obtain rfl : node = .directory := not_not.mp hnode
      exact .up (ih h)
  | case5 => cases h
  | case6 links place node name hnode hitself hup hlength hfree =>
      obtain rfl : node = .directory := not_not.mp hnode
      cases h
      exact .free (isEntryName_iff.mpr ⟨hitself, hup, hlength⟩) hfree
  | case7 => cases h
  | case8 => cases h
  | case9 place node name names hnode hitself hup hlength target hlink links ih =>
      obtain rfl : node = .directory := not_not.mp hnode
      exact .link (isEntryName_iff.mpr ⟨hitself, hup, hlength⟩) hlink (ih h)
  | case10 links place node name names hnode hitself hup hlength next hnoLink hnext ih =>
      obtain rfl : node = .directory := not_not.mp hnode
      exact .into (isEntryName_iff.mpr ⟨hitself, hup, hlength⟩) hnext hnoLink (ih h)

/-- These steps make a walk that succeeds. -/
theorem walk_of_leads (h : Leads tree links start node names last found) :
    tree.walk links start node names = .ok (last, found) := by
  induction h with
  | here => rw [walk]
  | stay itself later ih => rw [walk, if_neg (by simp), if_pos itself, ih]
  | up later ih => rw [walk, if_neg (by simp), if_neg (by decide), if_pos rfl, ih]
  | free entry nothing =>
      obtain ⟨hitself, hup, hlength⟩ := isEntryName_iff.mp entry
      rw [walk, if_neg (by simp), if_neg hitself, if_neg hup, if_neg hlength, nothing]
      simp
  | link entry there later ih =>
      obtain ⟨hitself, hup, hlength⟩ := isEntryName_iff.mp entry
      rw [walk, if_neg (by simp), if_neg hitself, if_neg hup, if_neg hlength, there]
      exact ih
  | @into links place names last name found next entry there noLink later ih =>
      obtain ⟨hitself, hup, hlength⟩ := isEntryName_iff.mp entry
      rw [walk, if_neg (by simp), if_neg hitself, if_neg hup, if_neg hlength, there]
      cases next with
      | link target => exact absurd rfl (noLink target)
      | file content => exact ih
      | directory => exact ih
      | socket => exact ih
      | device => exact ih

/-- **The walks that succeed** are those that take such steps. -/
theorem walk_eq_ok_iff : tree.walk links start node names = .ok (last, found) ↔
    Leads tree links start node names last found :=
  ⟨leads_of_walk, walk_of_leads⟩

/-! ## Writing -/

/-- What a file may be written over: a file, or nothing yet. -/
inductive Writable : Option Node → Prop
  | file (old : Bytes) : Writable (some (.file old))
  | free : Writable none

/-- Nothing is gone on to from a file. -/
theorem Leads.of_file {old : Bytes} (h : Leads tree links start (.file old) names last found) :
    names = [] ∧ last = start ∧ found = some (.file old) := by
  cases h with
  | here => exact ⟨rfl, rfl, rfl⟩

/-- **A walk that ends where a file may be written** tells what stands there, unless it has
begun at a file. -/
theorem Leads.at?_eq (h : Leads tree links start node names last found)
    (hnode : ∀ old, node ≠ .file old) (hfound : Writable found) :
    last ≠ [] ∧ tree.at? last = found := by
  induction h with
  | here =>
      cases hfound with
      | file old => exact absurd rfl (hnode old)
  | stay itself later ih => exact ih hnode hfound
  | up later ih => exact ih hnode hfound
  | free entry nothing => exact ⟨by simp, nothing⟩
  | link entry there later ih => exact ih (by simp) hfound
  | @into links place names last name found next entry there noLink later ih =>
      by_cases hfile : ∃ old, next = .file old
      · obtain ⟨old, rfl⟩ := hfile
        obtain ⟨-, rfl, rfl⟩ := later.of_file
        exact ⟨by simp, there⟩
      · exact ih (fun old hold => hfile ⟨old, hold⟩) hfound

/-- **A walk after a file has been written** at `place`: it takes the same steps, and if it
ended there, it finds what has been written. -/
theorem Leads.enter (h : Leads tree links start node names last found)
    (hnode : ∀ old, node ≠ .file old) (hplace : place ≠ []) (hwritable : Writable (tree.at? place))
    (content : Bytes) :
    Leads (tree.enter place (.file content)) links start node names last
      (if last = place ∧ found = tree.at? place then some (.file content) else found) := by
  have hentered : ∀ other, (tree.enter place (.file content)).at? other =
      if other = place then some (.file content) else tree.at? other :=
    at?_enter hplace (.file content)
  -- What is no file and not free has not been written over.
  have hkept : ∀ {other : List Name} {next : Node}, tree.at? other = some next →
      (∀ old, next ≠ .file old) →
        (tree.enter place (.file content)).at? other = some next := by
    intro other next hnext hfile
    rw [hentered, if_neg, hnext]
    rintro rfl
    rw [hnext] at hwritable
    cases hwritable with
    | file old => exact hfile old rfl
  induction h with
  | @here links start node =>
      rw [if_neg]
      · exact .here
      · rintro ⟨-, hfound⟩
        rw [← hfound] at hwritable
        cases hwritable with
        | file old => exact hnode old rfl
  | stay itself later ih => exact .stay itself (ih hnode)
  | up later ih => exact .up (ih hnode)
  | @free links start name entry nothing =>
      by_cases hlast : start ++ [name] = place
      · rw [if_pos ⟨hlast, by rw [← hlast, nothing]⟩]
        refine .into entry ?_ (by simp) .here
        rw [hentered, if_pos hlast]
      · rw [if_neg fun hboth => hlast hboth.1]
        refine .free entry ?_
        rw [hentered, if_neg hlast, nothing]
  | link entry there later ih => exact .link entry (hkept there (by simp)) (ih (by simp))
  | @into links start names last name found next entry there noLink later ih =>
      by_cases hfile : ∃ old, next = .file old
      · obtain ⟨old, rfl⟩ := hfile
        obtain ⟨rfl, rfl, rfl⟩ := later.of_file
        by_cases hlast : start ++ [name] = place
        · rw [if_pos ⟨hlast, by rw [← hlast, there]⟩]
          refine .into entry ?_ (by simp) .here
          rw [hentered, if_pos hlast]
        · rw [if_neg fun hboth => hlast hboth.1]
          refine .into entry ?_ noLink .here
          rw [hentered, if_neg hlast, there]
      · have hplain : ∀ old, next ≠ .file old := fun old hold => hfile ⟨old, hold⟩
        exact .into entry (hkept there hplain) noLink (ih hplain)

/-- A path leads to what a walk from its origin finds. -/
theorem leads_of_resolve {path : Path} (h : tree.resolve path = .ok (last, found)) :
    checkPath path = .ok () ∧
      Leads tree linkLimit (origin tree.home path) .directory (components path) last found := by
  unfold resolve at h
  split at h
  · cases h
  · next hcheck => exact ⟨hcheck, walk_eq_ok_iff.mp h⟩

/-- A path leads where it led, and to what has been written if it led there. -/
theorem resolve_enter {path : Path} (h : tree.resolve path = .ok (last, found))
    (hplace : place ≠ []) (hwritable : Writable (tree.at? place)) (content : Bytes) :
    (tree.enter place (.file content)).resolve path =
      .ok (last, if last = place ∧ found = tree.at? place then some (.file content)
        else found) := by
  obtain ⟨hcheck, hleads⟩ := leads_of_resolve h
  rw [resolve, hcheck]
  exact walk_eq_ok_iff.mpr (hleads.enter (by simp) hplace hwritable content)

/-- **What is written is read, and no other file changes.**  Let a path lead to a file or to a
free place.  After it has been written, every path that led to the same shows what has been
written, and every path that led somewhere else is answered as before. -/
theorem openFile_of_write {path : Path} (hpath : tree.resolve path = .ok (place, found))
    (hfound : Writable found) (content : Bytes) :
    (∀ other, tree.resolve other = .ok (place, found) →
        (tree.write path content).openFile.Holds other content) ∧
      ∀ other elsewhere there, tree.resolve other = .ok (elsewhere, there) → elsewhere ≠ place →
        (tree.write path content).openFile other = tree.openFile other := by
  obtain ⟨-, hleads⟩ := leads_of_resolve hpath
  obtain ⟨hplace, hat⟩ := hleads.at?_eq (by simp) hfound
  have hwrite : tree.write path content = tree.enter place (.file content) := by
    unfold write
    cases hfound with
    | file old => simp [hpath]
    | free => simp [hpath]
  have hwritable : Writable (tree.at? place) := hat ▸ hfound
  rw [hwrite]
  constructor
  · intro other hother
    have hresolve := resolve_enter hother hplace hwritable content
    rw [if_pos ⟨rfl, hat.symm⟩] at hresolve
    exact holds_iff.mpr ⟨place, hresolve⟩
  · intro other elsewhere there hother hne
    have hresolve := resolve_enter hother hplace hwritable content
    rw [if_neg fun hboth => hne hboth.1] at hresolve
    simp only [openFile, hresolve, hother]

end FileTree

end Linewise
