/-
A file tree: what stands at each location, the directory that relative paths
start from, and which files the user may not read or write. A location is the
list of names that leads to it from the top, through directories only; paths,
which may lead through links, become locations in `Tree.Walk`.
-/
import CopyrightNotice.Path.Basic

namespace CopyrightNotice

/-- The names that lead from the top to an entry. -/
abbrev Location := List Bytes

/-- What stands at a location. -/
inductive Entry where
  | file (content : Bytes)
  | link (target : Path)
  | directory
deriving DecidableEq, Repr

/-- The entries of a file tree, the newest first. Of two entries with one
location the first counts. -/
structure Tree where
  entries : List (Location × Entry) := []
  /-- Where relative paths start. -/
  here : Location := []
  /-- The files that may not be read. -/
  unreadable : List Location := []
  /-- The locations at which no file may be written. -/
  unwritable : List Location := []
deriving Repr

namespace Tree

/-- What stands at a location. The top is a directory. -/
def entry? (t : Tree) (l : Location) : Option Entry :=
  if l = [] then some .directory else t.entries.lookup l

/-- Whether a directory stands at a location. -/
def isDirectory (t : Tree) (l : Location) : Bool :=
  t.entry? l == some .directory

/-- The tree with another entry at a location. -/
def set (t : Tree) (l : Location) (e : Entry) : Tree :=
  { t with entries := (l, e) :: t.entries.filter (·.1 != l) }

/-- The tree without the entry at a location. -/
def erase (t : Tree) (l : Location) : Tree :=
  { t with entries := t.entries.filter (·.1 != l) }

end Tree

namespace Location

/-- The location as an absolute path. -/
def path (l : Location) : Path := ⟨Path.slash :: Path.unsplit l⟩

end Location

end CopyrightNotice
