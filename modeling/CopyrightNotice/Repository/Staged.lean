/-
The files that a repository tracks, from what its index has staged. A
listing has every tracked path once and in order. Submodules are not
files, and a path that is no text is left out.
-/
import CopyrightNotice.Path.Order

namespace CopyrightNotice

/-- An entry of an index. -/
structure Staged where
  path : Bytes
  /-- The kind of entry and its permissions. -/
  mode : Nat := 0o100644
  /-- Zero, or the side of a conflict. -/
  stage : Nat := 0
deriving DecidableEq, Repr

namespace Staged

/-- The mode of a submodule. -/
def submodule : Nat := 0o160000

/-- Whether an entry stands for a file. -/
def isFile (e : Staged) : Bool := e.mode != submodule

/-- The order of an index: by the bytes of the path, then by stage. -/
def precedes (d e : Staged) : Bool :=
  ((compareBytes d.path e.path).then (compare d.stage e.stage)).isLE

/-- The path without its dots. -/
def plainDirectory (dir : Path) : Path :=
  Path.ofComponents (dir.components.filter (· != .here))

/-- The paths without those that equal the one before. -/
def dropRepeats : List Path → List Path
  | [] => []
  | [p] => [p]
  | p :: q :: rest =>
    if p.sameAs q then dropRepeats (p :: rest)
      else p :: dropRepeats (q :: rest)
termination_by ps => ps.length

/-- The tracked paths at or below a directory, in order. -/
def listing (entries : List Staged) (dir : Path) : List Path :=
  let below := plainDirectory dir
  let paths := (entries.filter fun e => e.isFile && Utf8.isText e.path).map
    (Path.mk ·.path)
  dropRepeats ((paths.filter (·.startsWith below)).mergeSort Path.precedes)

/-- The paths that a listing leaves out because they are no text, in the
order of the index. -/
def unreadable (entries : List Staged) : List Path :=
  ((entries.filter fun e => e.isFile && !Utf8.isText e.path).mergeSort
      precedes).map
    (Path.mk ·.path)

end Staged

end CopyrightNotice
