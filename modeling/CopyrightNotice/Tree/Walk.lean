/-
From paths to locations. A walk goes name by name, through directories
and along the links it meets; a slash at the end of a path asks for a
directory. It may follow forty links, so that a loop of links ends.

The last name of a path is special in two ways. Whoever asks about an
entry itself does not follow a link there; whoever wants to write may
find nothing there, and then the walk ends at a free location in an
existing directory.

A path without links is found by a walk of its own (`Tree.resolve`). It goes
the same way, but it asks about every name on it by a path from the top. Where
such a path reaches the limit on the length of paths it fails, also if the
path that it was given leads there.
-/
import CopyrightNotice.Tree.Basic
import CopyrightNotice.Tree.Fault

namespace CopyrightNotice.Tree

/-- How a walk treats the last name of its path. -/
inductive Goal where
  /-- An entry that exists, links followed. -/
  | target
  /-- An entry that exists, a link taken as it is. -/
  | itself
  /-- An entry that exists, links followed, or a free location. -/
  | place
deriving DecidableEq, Repr

/-- The most links that one walk follows. -/
def maxLinks : Nat := 40

/-- The longest name of an entry, in bytes. -/
def maxName : Nat := 255

/-- The bytes below which the length of a path has to stay. -/
def pathLimit : Nat := 4096

/-- The parts of a path that a walk takes one by one. An empty part at
the end stands for the slash there. -/
def parts (p : Path) : List Bytes :=
  let named := (Path.split p.bytes).filter (· != [])
  if p.bytes.getLast? == some Path.slash then named ++ [[]] else named

variable (t : Tree)

/-- The walk from a location along the parts of a path. -/
def walk (goal : Goal) (links : Nat) (l : Location) (todo : List Bytes) :
    Except Fault Location :=
  match todo with
  | [] => .ok l
  | part :: rest =>
    if !t.isDirectory l then .error .notDirectory
    else if Path.isVoid part then walk goal links l rest
    else if part = [Path.dot, Path.dot] then walk goal links l.dropLast rest
    else if maxName < part.length then .error .nameTooLong
    else if goal = .place ∧ rest = [[]] then .error .isDirectory
    else
      let next := l ++ [part]
      match t.entry? next with
      | none => if goal = .place ∧ rest = [] then .ok next
          else .error .notFound
      | some (.link target) =>
        if goal = .itself ∧ rest = [] then .ok next
        else match links with
          | 0 => .error .linkLoop
          | links + 1 =>
            walk goal links (if target.isAbsolute then [] else l)
              (parts target ++ rest)
      | some _ => walk goal links next rest
termination_by (links, todo.length)

/-- The location that a path leads to. -/
def locate (goal : Goal) (p : Path) : Except Fault Location :=
  if p.bytes.contains 0 then .error .nul
  else if p.bytes = [] then .error .notFound
  else if pathLimit ≤ p.bytes.length then .error .nameTooLong
  else walk t goal maxLinks (if p.isAbsolute then [] else t.here) (parts p)

/-- Whether a path leads to an entry. -/
def leadsTo (p : Path) : Bool :=
  match t.locate .target p with
  | .ok _ => true
  | .error _ => false

/-- Whether what follows a name asks for a directory there: parts that say
nothing up to the end, or up to a step up. -/
def asksDirectory (rest : List Bytes) : Bool :=
  match rest.dropWhile Path.isVoid with
  | [] => rest != []
  | part :: _ => part == [Path.dot, Path.dot]

/-- The walk that spells out where it is. It asks about each name by the path
from the top that it has come to, and this path has to stay short. -/
def resolve (links : Nat) (l : Location) (todo : List Bytes) :
    Except Fault Location :=
  match todo with
  | [] => .ok l
  | part :: rest =>
    if !t.isDirectory l then .error .notDirectory
    else if Path.isVoid part then resolve links l rest
    else if part = [Path.dot, Path.dot] then resolve links l.dropLast rest
    else
      let next := l ++ [part]
      if maxName < part.length ∨ pathLimit ≤ next.path.bytes.length then
        .error .nameTooLong
      else match t.entry? next with
      | none => .error .notFound
      | some (.link target) =>
        match links with
        | 0 => .error .linkLoop
        | links + 1 =>
          resolve links (if target.isAbsolute then [] else l)
            (parts target ++ rest)
      | some _ =>
        -- a directory is asked for by its path with a slash behind it
        if asksDirectory rest ∧ pathLimit ≤ next.path.bytes.length + 1 then
          .error .nameTooLong
        else resolve links next rest
termination_by (links, todo.length)

/-- The absolute path without links and steps up to what `p` leads to. It is
found by asking about the paths on the way, so what lies too deep has none,
while `p` itself may be of any length. -/
def canonical (p : Path) : Except Fault Path :=
  if p.bytes.contains 0 then .error .nul
  else if p.bytes = [] then .error .notFound
  else (resolve t maxLinks (if p.isAbsolute then [] else t.here)
    (parts p)).map Location.path

end CopyrightNotice.Tree
