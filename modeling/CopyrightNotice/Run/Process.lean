/-
Checking and updating files. Each file is looked into if the selection
admits it and it is a known kind of text; its header is then judged, and
a check shows what an update would change, while an update changes it.
-/
import CopyrightNotice.Comment.Overrides
import CopyrightNotice.Header.Correction
import CopyrightNotice.Run.Files
import CopyrightNotice.Run.Preview
import CopyrightNotice.Selection.Filter

namespace CopyrightNotice

/-- What is done to files, and by which rules. -/
structure Task where
  /-- The root of the repository; paths of files are taken from it. -/
  root : Path
  notice : Notice
  /-- Whether files are only checked. -/
  check : Bool
  overrides : Overrides := {}
  /-- The format of each file that is a known kind of text. -/
  resolver : Path → Option FoundFormat := overrides.resolve
  marker : Text := Config.defaultMarker
  preview : Preview := {}

namespace Task

variable (t : Task)

/-- The files that are looked into. -/
def selection : Selection := { optOut := ⟨t.root, t.marker⟩ }

/-- The format of a file, if it is a known kind of text. -/
def formatOf (path : Path) : Job (Option CommentFormat) := do
  match t.resolver path with
  | none =>
    Job.log .trace .processing ("Skipping: " ++ path.display
      ++ " (unrecognized file type)")
    return none
  | some found =>
    if found.configured then
      Job.detail ("Using configured format for: ."
      ++ String.ofList found.extension)
    return some found.format

/-- Shows or makes the change to a file, if there is one. -/
def settle (path : Path) (old : Text) : Option Text → Job Unit
  | none => return
  | some new =>
    if t.check then t.preview.record path old new
    else Job.writeText (t.root.join path) new

/-- Judges a file of a known kind. -/
def judge (path : Path) (format : CommentFormat) : Job FileReport := do
  let text ← Job.readText (t.root.join path)
  let r := Recognizer.ofNotice t.notice format
  let regions ← Job.orFail (.header path) (r.parse text)
  regions.mismatch.forM fun m => Job.say (.mismatch path m)
  let status := FileStatus.ofVerdict t.check regions.verdict
  t.settle path text (r.correction? regions)
  Job.say (.status path status)
  return { path, status }

/-- Checks or updates one file. -/
def processFile (path : Path) : Job FileReport := do
  match ← t.selection.consider path with
  | .skipped reason => return .skipped path reason
  | .admitted =>
    match ← t.formatOf path with
    | none => return .skipped path "Unrecognized file type".toList
    | some format => t.judge path format

/-- Checks or updates files in order, and says whether a check failed. -/
def processAll : List Path → Job Bool
  | [] => return false
  | path :: more => do
    let report ← t.processFile path
    modify fun s => { s with reports := s.reports ++ [report] }
    let failed ← processAll more
    return (t.check && report.isNonCompliant) || failed

/-- Checks or updates the files of a run. -/
def processFiles (paths : List Path) : Job Bool := do
  let failed ← t.processAll paths
  Job.log .debug .processing s!"Processed {paths.length} files"
  return failed

end Task

end CopyrightNotice
