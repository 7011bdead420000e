import Linewise.Fault.Linux
import Linewise.File

/-!
# File trees

A file tree answers requests to open a path the way a system of files does.
Names are looked up one after the other, from the root or from a working
directory; symbolic links are followed, `.` stays and `..` goes back.

* `components` — the names in a path; a slash at the end leaves an empty last
  name, which stands for the directory itself;
* `walk` — follow the names of a path, through at most `linkLimit` links, to what
  stands there or to the place where a last name is free;
* `FileTree.openFile` — what is found at the end of the walk, opened;
* `FileTree.write` — give a file its content, at the end of the walk;
* `FileTree.make`, `FileTree.unlink` — put something under a free name, and take
  a name out of its directory, without following it.
-/

namespace Linewise

/-- The name of an entry in its directory. -/
abbrev Name := Bytes

/-- The byte between the names of a path. -/
def slash : UInt8 := 47

/-- The byte that makes up the names of a directory itself and of the one above
it. -/
def dot : UInt8 := 46

/-- The byte that no path may hold. -/
def nul : UInt8 := 0

/-- The most bytes that a name may have. -/
def nameLimit : Nat := 255

/-- The fewest bytes that make a path too long. -/
def pathLimit : Nat := 4096

/-- The most links that are followed on the way to a file. -/
def linkLimit : Nat := 40

/-- What a name in a directory stands for. -/
inductive Node where
  | file (content : Bytes)
  | directory
  | link (target : Path)
  | socket
  | device
  deriving Repr, DecidableEq

/-- The names of a path.  Two slashes in a row have an empty name between
them. -/
def components (path : Path) : List Name := path.splitOn slash

/-- A tree of files: each entry with all the names that lead to it from the
root, and the directory where relative paths start. -/
structure FileTree where
  entries : List (List Name × Node)
  home : List Name
  deriving Repr, DecidableEq

namespace FileTree

/-- The place from which relative paths lead. -/
def workPlace : List Name := ["tmp", "work"].map Utf8.encode

/-- The place of the device that swallows everything and holds nothing. -/
def nullPlace : List Name := ["dev", "null"].map Utf8.encode

/-- A tree with the places that are always there, and no file. -/
def empty : FileTree where
  entries :=
    [ (nullPlace.dropLast, .directory), (nullPlace, .device),
      (workPlace.dropLast, .directory), (workPlace, .directory) ]
  home := workPlace

/-- What stands at a place.  At the root there is always a directory. -/
def at? (tree : FileTree) (place : List Name) : Option Node :=
  if place.isEmpty then some .directory else tree.entries.lookup place

/-- Where a path begins: at the root, or here. -/
def origin (here : List Name) (path : Path) : List Name :=
  if path.head? = some slash then [] else here

/-- Follow `names` from the node at `place`, through at most `links` symbolic
links.  A link is followed wherever it stands, also at the end.  Where the last
name is free, the walk ends at its place without a node. -/
def walk (tree : FileTree) (links : Nat) (place : List Name) (node : Node) :
    List Name → Except IoError (List Name × Option Node)
  | [] => .ok (place, some node)
  | name :: rest =>
      if node ≠ .directory then .error .notADirectory
      else if name = [] ∨ name = [dot] then tree.walk links place node rest
      else if name = [dot, dot] then tree.walk links place.dropLast .directory rest
      else if nameLimit < name.length then .error .nameTooLong
      else match tree.at? (place ++ [name]) with
        | none => if rest = [] then .ok (place ++ [name], none) else .error .noSuchFile
        | some (.link target) =>
            match links with
            | 0 => .error .tooManyLinks
            | links + 1 =>
                tree.walk links (origin place target) .directory (components target ++ rest)
        | some found => tree.walk links (place ++ [name]) found rest
termination_by names => (links, names.length)

/-- Refuse what cannot be the path of anything. -/
def checkPath (path : Path) : Except IoError Unit :=
  if nul ∈ path then
    .error (.custom .invalidInput "file name contained an unexpected NUL byte")
  else if path = [] then .error .noSuchFile
  else if pathLimit ≤ path.length then .error .nameTooLong
  else .ok ()

/-- The place that a path leads to, and the node there unless the place is
free. -/
def resolve (tree : FileTree) (path : Path) : Except IoError (List Name × Option Node) :=
  match checkPath path with
  | .error e => .error e
  | .ok () => tree.walk linkLimit (origin tree.home path) .directory (components path)

/-- Follow the path, and open what it leads to. -/
def openFile (tree : FileTree) : FileSystem := fun path =>
  match tree.resolve path with
  | .error e => .error e
  | .ok (_, none) => .error .noSuchFile
  | .ok (_, some (.file content)) => .ok (.regular content)
  | .ok (_, some .directory) => .ok (.refusing ⟨false, 0⟩ .noSuchDevice)
  | .ok (_, some .device) => .ok (.refusing ⟨false, 0⟩ .noSuchDevice)
  | .ok (_, some .socket) => .error .noSuchAddress
  | .ok (_, some (.link _)) => .error .tooManyLinks

/-! ## Changing a tree -/

/-- Put an entry at a place, instead of the one that may be there. -/
def enter (tree : FileTree) (place : List Name) (node : Node) : FileTree :=
  { tree with entries := (place, node) :: tree.entries.filter (·.1 ≠ place) }

/-- Give the file that a path leads to its content, and make it where there is
none yet.  A device swallows the content, and nothing else takes it. -/
def write (tree : FileTree) (path : Path) (content : Bytes) : FileTree :=
  match tree.resolve path with
  | .ok (place, some (.file _)) => tree.enter place (.file content)
  | .ok (place, none) => tree.enter place (.file content)
  | _ => tree

/-- A name that can stand for something in a directory: not the empty one, and
not those for the directory itself and for the one above it. -/
def isEntryName (name : Name) : Bool :=
  name != [] && name != [dot] && name != [dot, dot] && decide (name.length ≤ nameLimit)

/-- The place that a path names in its directory, whatever stands there. -/
def placeOf? (tree : FileTree) (path : Path) : Option (List Name) :=
  match checkPath path with
  | .error _ => none
  | .ok () =>
      let names := components path
      match tree.walk linkLimit (origin tree.home path) .directory names.dropLast,
          names.getLast? with
      | .ok (place, some .directory), some name =>
          if isEntryName name then some (place ++ [name]) else none
      | _, _ => none

/-- Put a node under a name that is free.  What stands there already is left
alone, be it a link to nothing. -/
def make (tree : FileTree) (path : Path) (node : Node) : FileTree :=
  match tree.placeOf? path with
  | none => tree
  | some place => if (tree.at? place).isSome then tree else tree.enter place node

/-- Take the last name of a path out of its directory.  A directory is not taken
out this way, and neither is a name that is not there. -/
def unlink (tree : FileTree) (path : Path) : Option FileTree :=
  match tree.placeOf? path with
  | none => none
  | some place =>
      match tree.at? place with
      | none => none
      | some .directory => none
      | some _ => some { tree with entries := tree.entries.filter (·.1 ≠ place) }

/-- The path without the slashes at its end. -/
def withoutSlashes (path : Path) : Path :=
  (path.reverse.dropWhile (· == slash)).reverse

/-- Put a node at a path: a file is written through links, and anything else needs
a free name.  The name of a directory may end with slashes. -/
def put (tree : FileTree) (path : Path) : Node → FileTree
  | .file content => tree.write path content
  | .directory => tree.make (withoutSlashes path) .directory
  | .link target => tree.make path (.link target)
  | .socket => tree.make path .socket
  | .device => tree.make path .device

/-- The tree that holds the given entries in its working directory, put there one
after the other. -/
def ofEntries (entries : List (Path × Node)) : FileTree :=
  entries.foldl (fun tree entry => tree.put entry.1 entry.2) empty

end FileTree

end Linewise
