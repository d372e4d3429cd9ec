/-
Reading and writing files by path. Reading changes nothing; writing
changes the entry at one location, and that only if it succeeds.
-/
import CopyrightNotice.Tree.Walk

namespace CopyrightNotice.Tree

variable (t : Tree)

/-- The content of the file that a path leads to. -/
def read (p : Path) : Except Fault Bytes := do
  let l ← t.locate .target p
  match t.entry? l with
  | some (.file content) =>
    if t.unreadable.contains l then .error .denied else .ok content
  | some .directory => .error .isDirectory
  | _ => .error .notFound

/-- The content of the file that a path leads to, as text. -/
def readText (p : Path) : Except Fault Text := do
  match Utf8.decode (← t.read p) with
  | .ok text => .ok text
  | .error _ => .error .notText

/-- The location of the file to write, and what it holds so far. -/
def openFile (p : Path) : Except Fault (Location × Bytes) := do
  let l ← t.locate .place p
  match t.entry? l with
  | some .directory => .error .isDirectory
  | some (.file content) =>
    if t.unwritable.contains l then .error .denied else .ok (l, content)
  | none => if t.unwritable.contains l then .error .denied else .ok (l, [])
  | some (.link _) => .error .notFound

/-- The tree after a file got new content; the file is made if it is not
there. -/
def write (p : Path) (content : Bytes) : Except Fault Tree := do
  let (l, _) ← t.openFile p
  .ok (t.set l (.file content))

/-- The tree after content was added at the end of a file; the file is
made if it is not there. -/
def append (p : Path) (content : Bytes) : Except Fault Tree := do
  let (l, old) ← t.openFile p
  .ok (t.set l (.file (old ++ content)))

/-- What stands where a path leads, links at its end not followed. -/
def entryAt (p : Path) : Except Fault Entry := do
  match t.entry? (← t.locate .itself p) with
  | some e => .ok e
  | none => .error .notFound

end CopyrightNotice.Tree

namespace CopyrightNotice

/-- A change to one file. -/
inductive Write where
  /-- The file gets new content. -/
  | replace (path : Path) (content : Bytes)
  /-- Content is added at the end of the file. -/
  | extend (path : Path) (content : Bytes)
deriving DecidableEq, Repr

/-- The tree after a change. -/
def Write.apply (t : Tree) : Write → Except Fault Tree
  | .replace path content => t.write path content
  | .extend path content => t.append path content

end CopyrightNotice
