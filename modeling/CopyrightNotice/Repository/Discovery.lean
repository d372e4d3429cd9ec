/-
Finding the repository that a directory belongs to. From the directory
upward, each one is asked twice: whether it holds a repository under the
name `.git`, and whether it is itself one. A `.git` that is a file names
the directory of its repository, and ends the search either way.

A repository is known by its parts: a file `HEAD` and the directories
`objects` and `refs`. It keeps them all in one place, and its working tree is
the directory around that place. Linked working trees and submodules, whose
data name a common directory or lie in another repository, and a working tree
set by `core.worktree` are not followed.
-/
import CopyrightNotice.Tree.Access

namespace CopyrightNotice

/-- Why a repository cannot be opened. -/
inductive RepositoryFault where
  /-- The `.git` file at the path names no repository. -/
  | malformedLink (path : Path)
  /-- The starting point cannot be resolved. -/
  | unresolved (path : Path)
  /-- There is no repository at the path. -/
  | absent (path : Path)
deriving DecidableEq, Repr

namespace RepositoryFault

/-- The sentence for a fault. -/
def message : RepositoryFault → String
  | .malformedLink path =>
    "the \x60.git\x60 file at '" ++ path.display
      ++ "' is malformed; class=Repository (6)"
  | .unresolved path =>
      "failed to resolve path '" ++ path.display ++ "'; class=Os (2)"
  | .absent path =>
    "could not find repository at '" ++ path.display
      ++ "'; class=Repository (6); code=NotFound (-3)"

end RepositoryFault

/-- A repository and the directory whose files it tracks. -/
structure Repository where
  /-- Where the repository keeps its data. -/
  data : Location
deriving DecidableEq, Repr

namespace Repository

/-- A name as bytes. -/
def name (s : String) : Bytes := Utf8.encode s.toList

/-- The name of a repository within its working tree. -/
def dotGit : Bytes := name ".git"

-- ========================================================== its parts

variable (t : Tree)

/-- Whether a directory holds a file, links followed. -/
def holdsFile (l : Location) (part : String) : Bool :=
  match t.locate .target (Location.path (l ++ [name part])) with
  | .ok l =>
    match t.entry? l with
    | some (.file _) => true
    | _ => false
  | .error _ => false

/-- Whether a directory holds a directory, links followed. -/
def holdsDirectory (l : Location) (part : String) : Bool :=
  match t.locate .target (Location.path (l ++ [name part])) with
  | .ok l => t.isDirectory l
  | .error _ => false

/-- Whether a directory is a repository. -/
def isValid (l : Location) : Bool :=
  holdsDirectory t l "objects" && holdsFile t l "HEAD"
    && holdsDirectory t l "refs"

-- ==================================================== links to it

/-- The words in front of the directory in a `.git` file. -/
def linkWords : Text := "gitdir:".toList

/-- The blanks of such a file. -/
def isLinkBlank (c : Char) : Bool :=
  c == ' ' || (0x9 ≤ c.toNat && c.toNat ≤ 0xD)

/-- The location that the `.git` file at a location names, if it is
there. -/
def linkTarget? (l : Location) : Except RepositoryFault (Option Location) :=
  let malformed := .error (.malformedLink (Location.path l))
  match t.read (Location.path l) with
  | .error _ => malformed
  | .ok content =>
    let words := Utf8.encode linkWords
    let blank := fun b : UInt8 => isLinkBlank (Char.ofNat b.toNat)
    let trimmed := Text.dropEndWhile blank content
    if !(words.isPrefixOf trimmed && words.length < trimmed.length)
      then malformed
    else
      let target : Path := ⟨(trimmed.drop words.length).dropWhile blank⟩
      match t.locate .target ((Location.path l.dropLast).join target) with
      | .ok l => .ok (some l)
      | .error _ => .ok none

-- ============================================================== search

/-- The repository at a location, and whether the search is over. -/
inductive Sight where
  | repository (data : Location)
  | nothing
  | ending

/-- What a location shows of a repository. -/
def look (l : Location) : Except RepositoryFault Sight :=
  match t.locate .target (Location.path l) with
  | .error _ => .ok .nothing
  | .ok real =>
    match t.entry? real with
    | some .directory =>
      .ok (if isValid t real then .repository l else .nothing)
    | some (.file _) =>
      if l.getLast? = some dotGit then do
        match ← linkTarget? t l with
        | some data => .ok (if isValid t data then .repository data
            else .ending)
        | none => .ok .ending
      else .ok .nothing
    | _ => .ok .nothing

/-- What a directory, or the repository in it, shows. -/
def lookAround (l : Location) : Except RepositoryFault Sight := do
  match ← look t (l ++ [dotGit]) with
  | .nothing => look t l
  | sight => .ok sight

/-- The repository that a location or the nearest one above it shows. -/
def searchFrom (l : Location) :
    Except RepositoryFault (Option Repository) := do
  match ← lookAround t l with
  | .repository data => .ok (some ⟨data⟩)
  | .ending => .ok none
  | .nothing =>
    if l = [] then .ok none else searchFrom l.dropLast
termination_by l.length
decreasing_by
  have := List.length_pos_iff.2 ‹¬l = []›
  simp only [List.length_dropLast]
  omega

/-- The repository that the directory of a path belongs to. There is none
where the path leads nowhere. -/
def discover (start : Path) : Except RepositoryFault (Option Repository) :=
  match t.locate .target start with
  | .ok l => searchFrom t l
  | .error .notFound | .error .notDirectory => .ok none
  | .error _ => .error (.unresolved start)

/-- The repository in a directory, or that a directory is. -/
def openAt (root : Path) : Except RepositoryFault Repository :=
  match t.locate .target root with
  | .error _ => .error (.absent root)
  | .ok l => do
    match ← lookAround t l with
    | .repository data => .ok ⟨data⟩
    | _ => .error (.absent root)

-- ========================================================= working tree

/-- Whether a line of a repository's configuration says that it has no
working tree. -/
def saysBare (line : Text) : Bool :=
  let words := (Text.trim line).filter fun c => !isLinkBlank c
  let (key, value) := words.span (· != '=')
  key.map Char.toLower == "bare".toList
    && ["", "=true", "=yes", "=on", "=1"].any (·.toList == value.map
    Char.toLower)

/-- Whether a repository has no working tree. -/
def isBare (r : Repository) : Bool :=
  match t.readText (Location.path (r.data ++ [name "config"])) with
  | .ok config => (Text.lines config).any saysBare
  | .error _ => false

/-- The directory whose files a repository tracks, with a slash at its
end. A bare repository has none. -/
def workingTree? (r : Repository) : Option Path :=
  if isBare t r then none
  else some ((Location.path r.data.dropLast).join ⟨[]⟩)

end Repository

end CopyrightNotice
