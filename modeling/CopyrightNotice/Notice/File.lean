/-
The notice as it stands in a file.
-/
import CopyrightNotice.Notice.Basic
import CopyrightNotice.Tree.Access

namespace CopyrightNotice

/-- Why a file gives no notice. -/
inductive NoticeFault where
  | unreadable (path : Path) (fault : Fault)
  | empty (path : Path)
deriving DecidableEq, Repr

namespace NoticeFault

/-- The sentence for a fault. -/
def message : NoticeFault → String
  | .unreadable path fault =>
    "Failed to read notice file '" ++ path.display ++ "': " ++ fault.message
  | .empty path => "Notice file '" ++ path.display ++ "' is empty"

/-- The sentences for a fault and for what brought it about. -/
def chain (fault : NoticeFault) : List String :=
  match fault with
  | .unreadable _ cause => [fault.message, cause.message]
  | .empty _ => [fault.message]

end NoticeFault

/-- The notice in a file. -/
def Notice.read (tree : Tree) (path : Path) : Except NoticeFault Notice :=
  match tree.readText path with
  | .error fault => .error (.unreadable path fault)
  | .ok t =>
    match Notice.ofLines? (Text.bareLines t) with
    | some notice => .ok notice
    | none => .error (.empty path)

end CopyrightNotice
