/-
A run of the command from its options to its exit code: find the
repository, its configuration and its notice, list the files, check or
update them, and sum up.
-/
import CopyrightNotice.Command.Options
import CopyrightNotice.Config.Discovery
import CopyrightNotice.Console.Voice
import CopyrightNotice.Report.Json
import CopyrightNotice.Repository.Tracked
import CopyrightNotice.Run.Process

namespace CopyrightNotice

/-- What a run knows from outside of the file tree. -/
structure Environment where
  /-- The variable that names a configuration file. -/
  configVariable : Option Text := none
  /-- The variable that holds the filter of the log. -/
  logVariable : Option Text := none
  /-- How long processing the files takes. -/
  elapsed : Elapsed := ⟨0⟩
  /-- When the run ends. -/
  timestamp : Int := 0
  /-- Whether someone watches the output on a terminal with colours. -/
  terminal : Bool := false

namespace Options

/-- How much a run prints. -/
def mode (o : Options) : Mode :=
  if 0 < o.verbosity then .verbose else if o.quiet then .quiet else .normal

/-- The least level that the log shows if the environment does not
say. -/
def logLevel (o : Options) : Level :=
  if o.quiet then .error
  else match o.verbosity with
    | 0 => .warn
    | 1 => .info
    | 2 => .debug
    | _ => .trace

/-- The records that the log shows: those that the environment asks for,
if it spells a filter. -/
def logFilter (o : Options) (written : Option Text) : LogFilter :=
  match written >>= LogFilter.parse? with
  | some filter => filter
  | none => .atLeast o.logLevel

/-- Whether a run prints colours. If nothing is asked for, it is left to
the terminal. -/
def colored (o : Options) (env : Environment) : Bool :=
  match o.colors with
  | some .always => true
  | some .never => false
  | _ => env.terminal

/-- How a run speaks. -/
def voice (o : Options) (env : Environment) : Voice :=
  { mode := o.mode, colored := o.colored env,
    log := o.logFilter env.logVariable }

end Options

namespace Command

/-- The root of the repository that the current directory belongs to. -/
def findRoot (start : Path) : Job Path := do
  let t ← Job.tree
  match ← Job.orFail (.repository start) (Repository.discover t start) with
  | none => throw (.noRepository start)
  | some repository =>
    match Repository.workingTree? t repository with
    | some root => return root
    | none => throw (.noRepository start)

/-- The notice in a file. -/
def loadNotice (path : Path) : Job Notice := do
  Job.detail ("Loading notice from: " ++ path.display)
  let notice ← Job.orFail (.notice path) (Notice.read (← Job.tree) path)
  if !notice.isRecognizable then
    Job.log .warn .notice
      ("First notice line does not start with '" ++ String.ofList noticeOpener
        ++ "'; existing headers will not be recognized")
  return notice

/-- What is said before anything is looked at. -/
def announce (o : Options) : Job Unit := do
  if o.skipOwnerCheck then
    Job.log .debug .command "Disabling git repository ownership check"
  if !o.check && (o.showDiff || o.saveDiff.isSome) then
    Job.say (.warning
      "Warning: --show-diff and --save-diff only apply to check")

/-- The task that the options and the configuration set, and the
directory that it is about. -/
def prepare (o : Options) (env : Environment) : Job (Task × Path) := do
  announce o
  let root ← findRoot (Location.path (← Job.tree).here)
  Job.log .debug .command ("Using repository root: " ++ root.display)
  let found ← Config.find o.config env.configVariable root o.noConfig
  let config := found.getD {}
  let notice ← loadNotice (root.join (o.noticeFile.getD config.noticeFile))
  let asked := o.directory.getD config.defaultDirectory
  let directory ← Job.orFail .directory (Workspace.relativeDir
    (← Job.tree) root asked)
  let preview : Preview :=
    if o.check then { shown := o.showDiff, saved := o.saveDiff } else {}
  preview.begin
  let task : Task :=
    { root, notice, check := o.check, overrides := config.overrides
      marker := config.optOutMarker, preview }
  return (task, directory)

/-- Writes the report of a run to a file. -/
def saveReport (path : Path) (reports : List FileReport) (summary : Summary) :
    Job Unit :=
  Job.change (.writeReport path) (.replace path (Utf8.encode (renderReport
    reports summary)))

/-- What is said and written at the end of a run. -/
def conclude (o : Options) (env : Environment) (failed : Bool) : Job Unit := do
  let reports := (← get).reports
  let summary := Summary.ofReports reports env.elapsed env.timestamp
  if summary.nonCompliant = 0 then
    Job.say .blank
    Job.say .allOk
  Job.say .blank
  Job.say (.summary summary o.check)
  if let some path := o.reportJson then
    saveReport path reports summary
    Job.say (.info ("Generated JSON report at " ++ path.display))
  if failed then
    Job.say .blank
    Job.say .hint

/-- A run, and whether its check failed. -/
def run (o : Options) (env : Environment) : Job Bool := do
  let (task, directory) ← prepare o env
  let files ← Repository.trackedFiles task.root directory
  Job.say (.start files.length o.check)
  let failed ← task.processFiles files
  conclude o env failed
  return failed

end Command

/-- What a command leaves behind. -/
structure Outcome where
  code : Nat
  stdout : String
  stderr : String
  session : Session

namespace Command

/-- The name and the version of the command. -/
def versionText : String := "notice-headers 0.1.0\n"

/-- A short reminder of how the command is used. -/
def usageText : String :=
  "Usage: notice-headers <check|update> [OPTIONS] [DIRECTORY]\n"

/-- What a run with the given options leaves behind. A failed check and a
failure both end with exit code one. -/
def outcome (o : Options) (env : Environment) (s : Session) : Outcome :=
  let voice := o.voice env
  match (run o env).run s with
  | .ok failed s =>
    ⟨if failed then 1 else 0, voice.allStdout s.events,
      voice.allStderr s.events, s⟩
  | .error failure s =>
    ⟨1, voice.allStdout s.events,
      voice.allStderr s.events ++ failure.report, s⟩

/-- What a command line leaves behind. -/
def execute (words : List Text) (env : Environment) (s : Session) : Outcome :=
  match Request.parse words with
  | .ok (.run o) => outcome o env s
  | .ok .help | .error .help => ⟨0, usageText, "", s⟩
  | .ok .version => ⟨0, versionText, "", s⟩
  | .error .misuse => ⟨2, "", usageText, s⟩

end Command

end CopyrightNotice
