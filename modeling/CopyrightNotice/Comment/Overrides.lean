/-
Which format a file's comments have: the configured one for its name's
extension, or else the known one. Extensions are compared in lowercase;
an extension that is no text has no format.
-/
import CopyrightNotice.Comment.Catalog
import CopyrightNotice.Path.Basic

namespace CopyrightNotice

/-- Configured formats by extension, in front of the known ones. -/
structure Overrides where
  formats : List (Text × CommentFormat) := []

/-- A format found for a file. -/
structure FoundFormat where
  extension : Text
  format : CommentFormat
  /-- Whether it was configured. -/
  configured : Bool
deriving DecidableEq, Repr

/-- The extension of a path in lowercase. -/
def Path.textExtension? (p : Path) : Option Text := do
  match Utf8.decode (← p.extension?) with
  | .ok t => some (Text.lowercase t)
  | .error _ => none

/-- The format of a file, if it is a recognized kind of text. -/
def Overrides.resolve (o : Overrides) (p : Path) : Option FoundFormat := do
  let extension ← p.textExtension?
  match o.formats.find? (fun (key, _) => Text.lowercase key == extension) with
  | some (_, format) => some ⟨extension, format, true⟩
  | none => some ⟨extension, ← CommentFormat.known? extension, false⟩

end CopyrightNotice
