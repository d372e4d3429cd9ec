/-
The directory that a run looks at, relative to the repository. It never
leaves the repository: an absolute path has to be in it once links are
followed, and a relative one may not step up.
-/
import CopyrightNotice.Path.Difference
import CopyrightNotice.Tree.Walk

namespace CopyrightNotice

/-- Why a directory cannot be looked at. -/
inductive DirectoryFault where
  | outside (dir root : Path)
  | leaves (dir : Path)
deriving DecidableEq, Repr

/-- The sentence for a fault. -/
def DirectoryFault.message : DirectoryFault → String
  | .outside dir root =>
    "Directory " ++ dir.display ++ " is outside the repository at "
      ++ root.display
  | .leaves dir =>
      "Directory " ++ dir.display ++ " must not leave the repository root"

namespace Workspace

/-- The path without links if it leads somewhere, or else as it is. -/
def canonicalOr (t : Tree) (p : Path) : Path :=
  match t.canonical p with
  | .ok q => q
  | .error _ => p

/-- The root itself, if a path says nothing. -/
def orRoot (p : Path) : Path := if p.bytes = [] then Path.ofString "." else p

/-- A directory relative to the root. -/
def relativeDir (t : Tree) (root dir : Path) : Except DirectoryFault Path :=
  if dir.isAbsolute then
    let root := canonicalOr t root
    let dir := canonicalOr t dir
    match Path.difference? root dir with
    | some way => if way.climbs then .error (.outside dir root)
        else .ok (orRoot way)
    | none => .error (.outside dir root)
  else if dir.climbs then .error (.leaves dir)
  else .ok (orRoot dir)

end Workspace

end CopyrightNotice
