/-
Why the system refuses to open, read or write what a path names.
-/
import CopyrightNotice.Text.Basic

namespace CopyrightNotice

/-- The reasons. -/
inductive Fault where
  | notFound
  | notDirectory
  | isDirectory
  | nameTooLong
  | linkLoop
  /-- The user lacks the permission. -/
  | denied
  /-- The path holds a NUL byte. -/
  | nul
  /-- The bytes that were read are no text. -/
  | notText
deriving DecidableEq, Repr

/-- The sentence for a reason. -/
def Fault.message : Fault → String
  | .notFound => "No such file or directory (os error 2)"
  | .notDirectory => "Not a directory (os error 20)"
  | .isDirectory => "Is a directory (os error 21)"
  | .nameTooLong => "File name too long (os error 36)"
  | .linkLoop => "Too many levels of symbolic links (os error 40)"
  | .denied => "Permission denied (os error 13)"
  | .nul => "file name contained an unexpected NUL byte"
  | .notText => "stream did not contain valid UTF-8"

end CopyrightNotice
