/-
The command as a program. What a run can look at is read into a file
tree: the repository around the current directory, and the places that
the command line and the environment name. The run itself is a function
of that tree; the files that it changed are written back, and what it
says is printed.
-/
import CopyrightNotice.Command.Run
import Std.Time.DateTime.Timestamp

namespace CopyrightNotice.Disk

-- ============================================================== loading

/-- The location that an absolute path spells. -/
def spelled (p : Path) : Location :=
  (Path.split p.bytes).filter (!Path.isVoid ·)

/-- The name of a location on the disk. -/
def nameOf (l : Location) : String := (Location.path l).display

/-- Where a link leads once all links are followed. A link that leads
nowhere gets a target with a name that no entry has. -/
def targetOf (l : Location) : IO Path := do
  try
    let target := (← IO.FS.realPath (nameOf l)).toString
    if target = nameOf l then return ⟨[Path.slash, 0]⟩
      else return Path.ofString target
  catch _ => return ⟨[Path.slash, 0]⟩

mutual

/-- The tree with the entry at a location, if there is one, and with the
target of a link. -/
partial def loadEntry (t : Tree) (l : Location) : IO Tree := do
  match ← ((← IO.currentDir) / nameOf l).symlinkMetadata.toBaseIO with
  | .error _ => return t
  | .ok data =>
    match data.type with
    | .file =>
      match ← (IO.FS.readBinFile (nameOf l)).toBaseIO with
      | .ok content => return t.set l (.file content.toList)
      | .error _ =>
          return { t.set l (.file []) with unreadable := l :: t.unreadable }
    | .symlink =>
      let target ← targetOf l
      loadChain (t.set l (.link target)) (spelled target)
    | _ => return t.set l .directory

/-- The tree with the entries on the way to a location. -/
partial def loadChain (t : Tree) (l : Location) : IO Tree :=
  (List.range l.length).foldlM
    (fun t n =>
      let l := l.take (n + 1)
      if (t.entry? l).isSome then return t else loadEntry t l)
    t

end

/-- The name of the directory in a repository that is never looked
into. -/
def objects : Location := [Repository.dotGit, Repository.name "objects"]

/-- The tree with all entries below a directory. -/
partial def loadBelow (t : Tree) (l : Location) : IO Tree := do
  let mut t := t
  for entry in ← ((← IO.currentDir) / nameOf l).readDir do
    let next := l ++ [Repository.name entry.fileName]
    t ← loadEntry t next
    if t.isDirectory next && !objects.isSuffixOf next then
      t ← loadBelow t next
  return t

/-- The nearest directory from a location upward that holds the data of a
repository. -/
def around? (here : Location) : IO (Option Location) := do
  for n in List.range here.length do
    let l := here.take (here.length - n)
    if ← ((← IO.currentDir) / nameOf (l ++ [Repository.dotGit])).pathExists
      then return some l
  return none

/-- The paths that the options name. -/
def pathsIn (words : List Text) : List Path :=
  match Request.parse words with
  | .ok (.run o) => [o.config, o.noticeFile, o.saveDiff, o.reportJson,
        o.directory].filterMap id
  | _ => []

/-- What a run with the given words can look at. Without a repository it
is not going to look at anything. -/
def load (words : List Text) (named : Option Text) : IO Tree := do
  let here := spelled (Path.ofString (← IO.currentDir).toString)
  let t ← loadChain { here } here
  match ← around? here with
  | none => return t
  | some around =>
    (pathsIn words ++ (named.map Path.ofText).toList).foldlM
      (fun t p => do
        let t ← loadChain t (spelled ((Location.path around).join p))
        loadChain t (spelled ((Location.path here).join p)))
      (← loadBelow t around)

-- =============================================================== saving

/-- Writes the files that are new or different. -/
def save (old new : Tree) : IO Unit :=
  new.entries.forM fun (l, entry) =>
    match entry with
    | .file content =>
      if old.entry? l == some entry then return
      else IO.FS.writeBinFile (nameOf l) ⟨content.toArray⟩
    | _ => return

end CopyrightNotice.Disk

namespace CopyrightNotice.Command

/-- Runs the command on the disk, and ends with its exit code. -/
def runOnDisk (args : List String) : IO UInt32 := do
  let started ← IO.monoNanosNow
  let words := args.map (·.toList)
  let named := (← IO.getEnv Config.variableName).map (·.toList)
  let tree ← Disk.load words named
  let env : Environment :=
    { configVariable := named
      logVariable := (← IO.getEnv "RUST_LOG").map (·.toList)
      elapsed := ⟨(← IO.monoNanosNow) - started⟩
      timestamp := (← Std.Time.Timestamp.now).toSecondsSinceUnixEpoch.val
      terminal :=
        (← (← IO.getStdout).isTty) && (← IO.getEnv "NO_COLOR").isNone }
  let outcome := execute words env { tree }
  Disk.save tree outcome.session.tree
  IO.print outcome.stdout
  IO.eprint outcome.stderr
  return UInt32.ofNat outcome.code

end CopyrightNotice.Command

/-- The program. -/
def main (args : List String) : IO UInt32 :=
  CopyrightNotice.Command.runOnDisk args
