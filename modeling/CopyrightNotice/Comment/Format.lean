/-
How a kind of file writes comments, as far as a notice header needs to
know: what opens and closes a block of comment lines, what leads each
line, how an empty line of a comment looks, and which lines must stay in
front of everything else.
-/
import CopyrightNotice.Text.Basic

namespace CopyrightNotice

/-- The comment markers of one kind of file. An empty marker is not
written. -/
structure CommentFormat where
  /-- A line above the header; with no leader, what opens every line. -/
  opening : Text := []
  /-- What stands in front of the text of every line. -/
  leader : Text := []
  /-- A line below the header; with no leader, what closes every line. -/
  closing : Text := []
  /-- How an empty line of the header is written, if not as the leader. -/
  blank : Option Text := none
  /-- Lines that start with this stay above an inserted header. -/
  preamble : Option Text := none
deriving DecidableEq, Repr

namespace CommentFormat

variable (f : CommentFormat)

/-- Without a leader every line is a comment of its own, opened and
closed. -/
def isWrapped : Bool := f.leader.isEmpty

/-- An empty line of the header. -/
def blankMarker : Text := f.blank.getD f.leader

/-- Comments that only have a leader. -/
def led (leader : String) : CommentFormat := { leader := leader.toList }

/-- The width of a banner. -/
def bannerWidth : Nat := 80

/-- Comments with a leader, under a line filled with one character. -/
def banner (fill : Char) (leader : String) : CommentFormat :=
  { led leader with opening := List.replicate bannerWidth fill }

/-- Comments of one line, opened and closed. -/
def wrapped (opening closing : String) : CommentFormat :=
  { opening := opening.toList, closing := closing.toList }

/-- The same comments, with lines to keep on top. -/
def keeping (preamble : String) : CommentFormat :=
  { f with preamble := some preamble.toList }

end CommentFormat

end CopyrightNotice
