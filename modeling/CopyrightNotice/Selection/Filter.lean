/-
Which of the tracked files a run looks into. A file has to be a regular
file of the working tree, not a link to one, and must not be opted out.
The first filter that turns a file down gives the reason.
-/
import CopyrightNotice.Run.Session

namespace CopyrightNotice

/-- The answer about a file. -/
inductive Admission where
  | admitted
  | skipped (reason : Text)
deriving DecidableEq, Repr

/-- The questions about a file. -/
inductive Filter where
  /-- Is it a regular file of the working tree? -/
  | workingTree
  /-- Is it in no directory that is opted out? -/
  | optOut
deriving DecidableEq, Repr

/-- The questions that are asked, in order, and the opt-outs of the
repository. -/
structure Selection where
  optOut : OptOut
  filters : List Filter := [.workingTree, .optOut]

namespace Selection

/-- The file is skipped, and those who ask are told why. -/
def skip (path : Path) (note : String) (reason : Text) : Job Admission := do
  Job.detail ("Skipping: " ++ path.display ++ " (" ++ note ++ ")")
  return .skipped reason

/-- Whether what was found at a path is a regular file, no link. -/
def askEntry (path : Path) : Except Fault Entry → Job Admission
  | .ok (.link _) => skip path "symlink" "Symlink".toList
  | .ok .directory =>
      skip path "not a regular file" "Not a regular file".toList
  | .ok (.file _) => return .admitted
  | .error _ =>
      skip path "missing from working tree" "Missing from working tree".toList

variable (s : Selection)

/-- Whether a path is a regular file, no link, of the working tree. -/
def askWorkingTree (path : Path) : Job Admission := do
  askEntry path ((← Job.tree).entryAt (s.optOut.root.join path))

/-- Notes the answer about opt-outs and what was asked for it. -/
def noteAnswer (answer : OptOut.Answer) : Job Unit := do
  modify fun session => { session with memo := answer.memo }
  answer.probes.forM fun (dir, found) =>
    Job.log .trace .optOut ("Opt-out marker in '" ++ dir.display ++ "': "
      ++ toString found)

/-- The nearest directory above a path that is opted out. -/
def optedOutBy (path : Path) : Job (Option Path) := do
  let session ← get
  let answer := s.optOut.ask session.tree session.memo path
  noteAnswer answer
  return answer.decider

/-- Whether a path is in no directory that is opted out. -/
def askOptOut (path : Path) : Job Admission := do
  match ← s.optedOutBy path with
  | none => return .admitted
  | some dir =>
    let marker := String.ofList s.optOut.marker
    let place := dir.join (Path.ofText s.optOut.marker)
    skip path (marker ++ " in '" ++ dir.display ++ "'")
      ("Opted out by ".toList ++ Utf8.display place.bytes)

/-- The answer of one filter. -/
def ask (path : Path) : Filter → Job Admission
  | .workingTree => s.askWorkingTree path
  | .optOut => s.askOptOut path

/-- The answers of filters, up to the first that turns the file down. -/
def askAll (path : Path) : List Filter → Job Admission
  | [] => return .admitted
  | filter :: more => do
    match ← s.ask path filter with
    | .admitted => askAll path more
    | skipped => return skipped

/-- Whether a file is looked into. -/
def consider (path : Path) : Job Admission := s.askAll path s.filters

end Selection

end CopyrightNotice
