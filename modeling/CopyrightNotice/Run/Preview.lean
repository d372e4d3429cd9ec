/-
The changes that an update would make, shown and saved. One run saves
all its changes in one file, which is emptied first.
-/
import CopyrightNotice.Diff.Preview
import CopyrightNotice.Run.Session

namespace CopyrightNotice

/-- What is done with changes that are not made. -/
structure Preview where
  /-- Whether they are shown. -/
  shown : Bool := false
  /-- The file that they are saved in. -/
  saved : Option Path := none

namespace Preview

variable (p : Preview)

/-- Whether anything is done with them. -/
def isEnabled : Bool := p.shown || p.saved.isSome

/-- Empties the file. -/
def begin : Job Unit := do
  match p.saved with
  | none => return
  | some file => Job.change (.createDiff file) (.replace file [])

/-- Shows and saves the changes to the file at a path. -/
def record (path : Path) (old new : Text) : Job Unit := do
  if !p.isEnabled then return
  let changes := Diff.render path old new
  if p.shown then Job.say (.preview changes)
  match p.saved with
  | none => return
  | some file =>
      Job.change (.openDiff file) (.extend file (Utf8.encode changes))

end Preview

end CopyrightNotice
