/-
The file as it should be. A stale header gives way to the expected block
in its place; a missing one is put on top, below the lines that the
format keeps there.
-/
import CopyrightNotice.Header.Regions

namespace CopyrightNotice

/-- The line with a line feed at its end. -/
def Text.terminated (line : Text) : Text :=
  if line.getLast? = some '\n' then line else line ++ ['\n']

namespace CommentFormat

/-- Whether a line stays above an inserted header. -/
def isPreamble (f : CommentFormat) (line : Text) : Bool :=
  match f.preamble with
  | some marker => leads marker line
  | none => false

end CommentFormat

/-- The text with the expected header, if it does not have it yet. -/
def Recognizer.correction? (r : Recognizer) (p : Regions) : Option Text :=
  match p.verdict with
  | .current => none
  | .stale => some (p.before.flatten ++ r.header.block ++ p.after.flatten)
  | .missing =>
    let kept := p.before.takeWhile r.format.isPreamble
    let rest := p.before.dropWhile r.format.isPreamble
    some ((kept.map Text.terminated).flatten ++ r.header.block ++ rest.flatten)

end CopyrightNotice
