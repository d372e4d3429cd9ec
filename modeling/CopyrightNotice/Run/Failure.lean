/-
Why a run stops before its end. A failure is told with what brought it
about, the outermost sentence first.
-/
import CopyrightNotice.Config.Basic
import CopyrightNotice.Header.Regions
import CopyrightNotice.Notice.File
import CopyrightNotice.Repository.Discovery
import CopyrightNotice.Workspace

namespace CopyrightNotice

/-- The reasons. -/
inductive Failure where
  | repository (place : Path) (fault : RepositoryFault)
  | noRepository (start : Path)
  /-- The index of the repository cannot be read. -/
  | index
  | config (path : Path) (fault : ConfigFault)
  | notice (path : Path) (fault : NoticeFault)
  | directory (fault : DirectoryFault)
  | createDiff (path : Path) (fault : Fault)
  | openDiff (path : Path) (fault : Fault)
  | readFile (path : Path) (fault : Fault)
  | notText (path : Path) (fault : Utf8.Fault)
  | header (path : Path) (fault : Imbalance)
  | writeFile (path : Path) (fault : Fault)
  | writeReport (path : Path) (fault : Fault)
deriving DecidableEq, Repr

namespace Failure

/-- The outermost sentence. -/
def message : Failure → String
  | .repository place _ => "Failed to open git repository at " ++ place.display
  | .noRepository start => start.display ++ " is not inside a git working tree"
  | .index => "Failed to read git index"
  | .config path _ => "Failed to load config from " ++ path.display
  | .notice path _ => "Failed to load notice from " ++ path.display
  | .directory fault => fault.message
  | .createDiff path _ => "Failed to create diff file " ++ path.display
  | .openDiff path _ => "Failed to open diff file " ++ path.display
  | .readFile path _ => "Failed to read file: " ++ path.display
  | .notText path _ => "File is not valid UTF-8: " ++ path.display
  | .header path _ => "Failed to parse header of " ++ path.display
  | .writeFile path _ => "Failed to write file: " ++ path.display
  | .writeReport path _ => "Failed to write report to " ++ path.display

/-- The sentences for what brought the failure about. -/
def causes : Failure → List String
  | .repository _ fault => [fault.message]
  | .noRepository _ => []
  | .index => ["invalid data in index; class=Index (10)"]
  | .config _ fault => fault.chain
  | .notice _ fault => fault.chain
  | .directory _ => []
  | .createDiff _ fault => [fault.message]
  | .openDiff _ fault => [fault.message]
  | .readFile _ fault => [fault.message]
  | .notText _ fault => [fault.message]
  | .header _ fault => [fault.message]
  | .writeFile _ fault => [fault.message]
  | .writeReport _ fault => [fault.message]

/-- All sentences in one line. -/
def chain (f : Failure) : String := ": ".intercalate (f.message :: f.causes)

/-- A sentence as one of several causes, or the only one. Further lines
of it stand under its first. -/
def causeText (number : Option Nat) (sentence : String) : String :=
  let first := match number with
    | some n => String.ofList (List.replicate (5 - (toString n).length) ' ')
        ++ s!"{n}: "
    | none => "    "
  let indent := if number.isSome then "       " else "    "
  first ++ ("\n" ++ indent).intercalate (sentence.splitOn "\n")

/-- What a run says when it stops. -/
def report (f : Failure) : String :=
  let causes := match f.causes with
    | [] => []
    | [cause] => ["", "Caused by:", causeText none cause]
    | causes => "" :: "Caused by:" :: causes.mapIdx fun n cause =>
        causeText (some n) cause
  "\n".intercalate (("Error: " ++ f.message) :: causes) ++ "\n"

end Failure

end CopyrightNotice
