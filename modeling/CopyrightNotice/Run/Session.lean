/-
A run in progress. A session holds everything that a run reads and changes: the
file tree, what is remembered about opt-outs, and the reports, events and
changed files so far. A job is a step of a run: it changes the session, and
gives a result or stops with a failure. What was done before a failure stays
done.
-/
import CopyrightNotice.Console.Event
import CopyrightNotice.Run.Failure
import CopyrightNotice.Selection.OptOut

namespace CopyrightNotice

/-- The state of a run. -/
structure Session where
  tree : Tree
  memo : OptOut.Memo := []
  reports : List FileReport := []
  /-- What was said so far, in order. -/
  events : List Event := []
  /-- The files that were changed so far, in order. -/
  writes : List Write := []

/-- A step of a run. -/
abbrev Job := EStateM Failure Session

namespace Job

/-- Says something. -/
def say (e : Event) : Job Unit :=
  modify fun s => { s with events := s.events ++ [e] }

/-- Says a detail. -/
def detail (text : String) : Job Unit := say (.detail text)

/-- Writes a record to the log. -/
def log (level : Level) (topic : Topic) (message : String) : Job Unit :=
  say (.log ⟨level, topic, message⟩)

/-- The file tree as it is now. -/
def tree : Job Tree := do return (← get).tree

/-- A result, or a failure made of its fault. -/
def orFail {ε α : Type} (failure : ε → Failure) : Except ε α → Job α
  | .ok a => pure a
  | .error e => throw (failure e)

/-- Changes a file. -/
def change (failure : Fault → Failure) (w : Write) : Job Unit := do
  let changed ← orFail failure (w.apply (← tree))
  modify fun s => { s with tree := changed, writes := s.writes ++ [w] }

end Job

end CopyrightNotice
