/-
Finding the configuration of a run: the file that was asked for, the file
that the environment names, or the file in the root of the repository.
-/
import CopyrightNotice.Run.Session

namespace CopyrightNotice.Config

/-- The name of a configuration file in the root of a repository. -/
def fileName : Path := Path.ofString ".notice-headers.toml"

/-- The variable that names a configuration file. -/
def variableName : String := "NOTICE_HEADERS_CONFIG"

/-- The configuration file named by the environment, if it is there. -/
def fromEnvironment (named : Option Text) : Job (Option Path) := do
  match named with
  | none => return none
  | some value =>
    let path := Path.ofText value
    if (← Job.tree).leadsTo path then
      Job.detail ("Using config from " ++ variableName ++ ": " ++ path.display)
      return some path
    else
      Job.detail (variableName ++ " path does not exist: " ++ path.display)
      return none

/-- The configuration file in the root of the repository, if it is
there. -/
def fromRoot (root : Path) : Job (Option Path) := do
  let path := root.join fileName
  if (← Job.tree).leadsTo path then
    Job.detail ("Using workspace config: " ++ path.display)
    return some path
  else
    Job.detail "No config file found"
    return none

/-- The configuration file of a run. One that was asked for is taken from
the root, whether it is there or not. -/
def discover (asked : Option Path) (named : Option Text) (root : Path) :
    Job (Option Path) := do
  match asked with
  | some path =>
    let path := root.join path
    Job.detail ("Using explicit config path: " ++ path.display)
    return some path
  | none =>
    match ← fromEnvironment named with
    | some path => return some path
    | none => fromRoot root

/-- The configuration in a file. -/
def load (path : Path) : Job Config := do
  Job.detail ("Loading config from: " ++ path.display)
  let config ← Job.orFail (.config path) (read (← Job.tree) path)
  Job.detail s!"Loaded {config.formats.length} format overrides"
  return config

/-- The configuration of a run, if it has one. -/
def find (asked : Option Path) (named : Option Text) (root : Path)
    (disabled : Bool) :
    Job (Option Config) := do
  if disabled then
    Job.detail "Config file discovery disabled (--no-config)"
    return none
  match ← discover asked named root with
  | none => return none
  | some path => return some (← load path)

end CopyrightNotice.Config
