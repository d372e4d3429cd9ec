/-
A file split at its header: the lines before, inside and after it, with
the verdict on the header and the first line in which it differs.

The search sees the lines of the file and one empty line below them,
which no file contains; a file that is nothing but a header thus reaches
the line that ends it.
-/
import CopyrightNotice.Header.Machine

namespace CopyrightNotice

/-- A file's lines, split at the header. -/
structure Regions where
  verdict : Verdict
  before : List Text
  header : List Text
  after : List Text
  mismatch : Option Mismatch
deriving DecidableEq, Repr

/-- A split that does not have the lines of the file. -/
structure Imbalance where
  linesIn : Nat
  linesOut : Nat
deriving DecidableEq, Repr

/-- The sentence for an imbalance. -/
def Imbalance.message (i : Imbalance) : String :=
  s!"Internal header parser error: {i.linesIn} lines in, "
    ++ s!"{i.linesOut} lines out"

namespace Effect

/-- The line an effect puts before the header. -/
def before? : Effect → Option Text
  | .before line => some line
  | _ => none

/-- The line an effect puts into the header. -/
def header? : Effect → Option Text
  | .header line => some line
  | _ => none

/-- The line an effect puts after the header. -/
def after? : Effect → Option Text
  | .after line => some line
  | _ => none

/-- The difference an effect reports. -/
def mismatch? : Effect → Option Mismatch
  | .mismatch m => some m
  | _ => none

end Effect

namespace Text

/-- The lines of a text and the empty line below them. -/
def closedLines (t : Text) : List Text := lines t ++ [[]]

end Text

namespace Regions

/-- The split that a finished search has settled. Lines still held are
before the header, and the empty line below the file is in no region. -/
def ofRun (effects : List Effect) (last : Search) : Regions :=
  let real := List.filter fun line : Text => !line.isEmpty
  { verdict := last.verdict
    before := real (effects.filterMap Effect.before? ++ last.held)
    header := real (effects.filterMap Effect.header?)
    after := real (effects.filterMap Effect.after?)
    mismatch := effects.findSome? Effect.mismatch? }

/-- How many lines the regions have. -/
def size (p : Regions) : Nat :=
  p.before.length + p.header.length + p.after.length

end Regions

/-- The split of a text at its header. -/
def Recognizer.parse (r : Recognizer) (t : Text) : Except Imbalance Regions :=
  let (effects, last) := r.run .scanning t.closedLines
  let p := Regions.ofRun effects last
  if p.size = (Text.lines t).length then .ok p
  else .error ⟨(Text.lines t).length, p.size⟩

end CopyrightNotice
