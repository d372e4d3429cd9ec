/-
Reading and writing files in the course of a run.
-/
import CopyrightNotice.Run.Session

namespace CopyrightNotice.Job

/-- The text of a file. -/
def readText (path : Path) : Job Text := do
  let bytes ← orFail (.readFile path) ((← tree).read path)
  orFail (.notText path) (Utf8.decode bytes)

/-- Gives a file another text. -/
def writeText (path : Path) (t : Text) : Job Unit :=
  change (.writeFile path) (.replace path (Utf8.encode t))

end CopyrightNotice.Job
