/-
Opting out by directory. A directory that holds the marker opts out
everything below it. For a path the directories above it are asked from
the nearest up to the root of the repository, and the first one with the
marker decides.

Every directory is asked about once. What it answered is remembered, so
that the answers about one run of files fit together even if the tree
changes under it.
-/
import CopyrightNotice.Tree.Walk

namespace CopyrightNotice

namespace Path

/-- The directories that hold a path, the nearest first, at most `steps`
of them. -/
def enclosingUpTo (steps : Nat) (p : Path) : List Path :=
  match steps with
  | 0 => []
  | steps + 1 =>
    match p.parent? with
    | none => []
    | some dir => dir :: enclosingUpTo steps dir

/-- The directories that hold a path, the nearest first. Every parent has
fewer bytes than what it holds. -/
def enclosing (p : Path) : List Path := enclosingUpTo p.bytes.length p

end Path

/-- The opt-outs of a repository. -/
structure OptOut where
  root : Path
  marker : Text

namespace OptOut

/-- The directories that were asked about, and what they answered.
Spellings of one directory are one key. -/
abbrev Memo := List (List Component × Bool)

variable (o : OptOut)

/-- The entry whose presence in a directory opts it out. -/
def markerIn (dir : Path) : Path :=
  (o.root.join dir).join (Path.ofText o.marker)

/-- Whether a directory holds the marker now. -/
def holds (t : Tree) (dir : Path) : Bool := t.leadsTo (o.markerIn dir)

/-- The answer to a question about a path. -/
structure Answer where
  /-- The nearest directory with the marker. -/
  decider : Option Path
  memo : Memo
  /-- The directories asked about for the first time, in order, and what
  they answered. -/
  probes : List (Path × Bool)

/-- The first of the given directories with the marker. -/
def firstOf (t : Tree) (memo : Memo) : List Path → Answer
  | [] => ⟨none, memo, []⟩
  | dir :: more =>
    match memo.lookup dir.components with
    | some true => ⟨some dir, memo, []⟩
    | some false => firstOf t memo more
    | none =>
      let found := o.holds t dir
      let memo := (dir.components, found) :: memo
      if found then ⟨some dir, memo, [(dir, found)]⟩
      else
        let rest := firstOf t memo more
        { rest with probes := (dir, found) :: rest.probes }

/-- The nearest directory above a path with the marker. -/
def ask (t : Tree) (memo : Memo) (p : Path) : Answer :=
  o.firstOf t memo p.enclosing

end OptOut

end CopyrightNotice
