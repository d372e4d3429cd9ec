/-
The changes to a file as a person reads them: every line of both texts
with a sign in front. Lines end at a line feed, at a carriage return, or
at both together.
-/
import CopyrightNotice.Diff.Compaction
import CopyrightNotice.Diff.Search
import CopyrightNotice.Path.Basic

namespace CopyrightNotice.Diff

/-- The lines of a text with their terminators. -/
def lines : Text → List Text
  | [] => []
  | '\r' :: '\n' :: rest => ['\r', '\n'] :: lines rest
  | c :: rest =>
    if c = '\n' ∨ c = '\r' then [c] :: lines rest
    else match lines rest with
      | [] => [[c]]
      | line :: more => (c :: line) :: more

/-- The script from one text to another. -/
def between (old new : Text) : Script :=
  compact (search (lines old) (lines new))

/-- The sign of a change. -/
def Change.sign : Change → Char
  | .keep => ' '
  | .delete => '-'
  | .insert => '+'

/-- The lines of a script, each with what happens to it. -/
def changes (s : Script) : List (Change × Text) :=
  s.flatMap fun run => run.lines.map fun line => (run.change, line)

/-- A line with its sign. A line without terminator gets a line feed. -/
def signed (change : Change) (line : Text) : Text :=
  change.sign :: line ++
    match line.getLast? with
    | some c => if Text.isLineEnd c then [] else ['\n']
    | none => ['\n']

/-- The changes to the file at a path. -/
def render (path : Path) (old new : Text) : Text :=
  "Diff for ".toList ++ Utf8.display path.bytes ++ ":\n".toList
    ++ (changes (between old new)).flatMap (fun (change, line) =>
      signed change line) ++ ['\n']

end CopyrightNotice.Diff
