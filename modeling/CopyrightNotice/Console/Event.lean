/-
What a run has to say, before it is decided how it is said and whether.
-/
import CopyrightNotice.Console.Log
import CopyrightNotice.Report.Basic

namespace CopyrightNotice

/-- Something that a run says. -/
inductive Event where
  /-- How many files are about to be looked at. -/
  | start (count : Nat) (check : Bool)
  /-- A blank line between parts. -/
  | blank
  /-- The first line in which a file's header differs. -/
  | mismatch (path : Path) (m : Mismatch)
  /-- The outcome for a file. -/
  | status (path : Path) (status : FileStatus)
  /-- No file needed a change. -/
  | allOk
  /-- The counts at the end. -/
  | summary (s : Summary) (check : Bool)
  /-- What to do after a failed check. -/
  | hint
  /-- A message that is not about a file. -/
  | info (text : String)
  /-- A detail for those who ask for details. -/
  | detail (text : String)
  /-- A warning that is always given. -/
  | warning (text : String)
  /-- The changes that an update would make. -/
  | preview (text : Text)
  /-- A record of the log. -/
  | log (r : Record)
deriving DecidableEq, Repr

end CopyrightNotice
