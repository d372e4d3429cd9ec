/-
The header that a file should carry: the notice written as comments of
the file's format. Its block, the lines with a blank line below, is what
an update writes.
-/
import CopyrightNotice.Comment.Format
import CopyrightNotice.Notice.Basic

namespace CopyrightNotice

/-- A notice written as comment lines. -/
structure Header where
  /-- The line above the notice, if the format has one. -/
  opening : Option Text
  /-- The lines of the notice, and a closing line if the format has one. -/
  body : List Text
  body_ne_nil : body ≠ []

namespace Header

/-- All lines of the header. -/
def lines (h : Header) : List Text := h.opening.toList ++ h.body

/-- The header as it stands in a file, a blank line below it. -/
def block (h : Header) : Text := (h.lines.map (· ++ ['\n'])).flatten ++ ['\n']

end Header

namespace CommentFormat

/-- One line of a notice as a comment. -/
def comment (f : CommentFormat) (line : Text) : Text :=
  if line = [] then f.blankMarker
  else if !f.isWrapped then f.leader ++ ' ' :: line
  else if f.closing = [] then f.opening ++ ' ' :: line
  else f.opening ++ ' ' :: line ++ ' ' :: f.closing

end CommentFormat

/-- The header of a notice in a format. -/
def Notice.render (notice : Notice) (f : CommentFormat) : Header where
  opening :=
    if !f.isWrapped && !f.opening.isEmpty then some f.opening else none
  body :=
    notice.lines.map f.comment
      ++ if !f.isWrapped && !f.closing.isEmpty then [f.closing] else []
  body_ne_nil := by simp [notice.ne_nil]

end CopyrightNotice
