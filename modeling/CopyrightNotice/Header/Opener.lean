/-
What a single line says about a header, judged by its text alone: whether
it starts a notice, opens or closes a block, or carries on a comment. No
question here looks at a line's terminator.
-/
import CopyrightNotice.Comment.Format
import CopyrightNotice.Notice.Basic

namespace CopyrightNotice.CommentFormat

open Text (content)

variable (f : CommentFormat)

-- ============================================================ openers

/-- The text behind a leader or, failing that, an opening marker. -/
def stripMarker? (t : Text) : Option Text :=
  if !f.leader.isEmpty && f.leader.isPrefixOf t
    then some (t.drop f.leader.length)
  else if !f.opening.isEmpty && f.opening.isPrefixOf t
    then some (t.drop f.opening.length)
  else none

theorem length_lt_of_stripMarker? {t rest : Text}
    (h : f.stripMarker? t = some rest) : rest.length < t.length := by
  have drop_lt : ∀ m : Text, (!m.isEmpty && m.isPrefixOf t) = true →
      (t.drop m.length).length < t.length := by
    intro m hm
    simp only [Bool.and_eq_true, Bool.not_eq_true', List.isEmpty_eq_false_iff,
      List.isPrefixOf_iff_prefix] at hm
    have hpos := List.length_pos_iff.2 hm.1
    have hle := hm.2.length_le
    simp only [List.length_drop]
    omega
  unfold stripMarker? at h
  split at h
  · cases h; exact drop_lt _ ‹_›
  · split at h
    · cases h; exact drop_lt _ ‹_›
    · cases h

/-- The text behind all markers in front of it. -/
def stripMarkers (t : Text) : Text :=
  match _h : f.stripMarker? t with
  | some rest => stripMarkers rest
  | none => t
termination_by t.length
decreasing_by exact length_lt_of_stripMarker? f _h

/-- The characters that markers are made of, blanks apart. -/
def isMarkerChar (c : Char) : Bool :=
  !Text.isBlank c && (f.leader.contains c || f.opening.contains c)

/-- Whether a line starts a notice: behind the markers, and what more of
their characters there is, stands one character and then the notice's
first words. -/
def isOpener (line : Text) : Bool :=
  match (f.stripMarkers (content line)).dropWhile f.isMarkerChar with
  | [] => false
  | _ :: rest => noticeOpener.isPrefixOf rest

-- ====================================================== other questions

/-- Whether a text has the marker in front; an empty marker is never
there. -/
def leads (marker t : Text) : Bool := !marker.isEmpty && marker.isPrefixOf t

/-- Whether a text has the marker at its end; an empty marker is never
there. -/
def closes (marker t : Text) : Bool := !marker.isEmpty && marker.isSuffixOf t

/-- Whether a line may stand right below a header. -/
def isTerminator (line : Text) : Bool :=
  let t := content line
  t.isEmpty || t == f.closing || f.closing.isSuffixOf t || t == f.blankMarker

/-- Whether a line carries on a comment: it starts with a marker, or with
the star or the indent of a block comment's inner lines. -/
def isContinuation (line : Text) : Bool :=
  let t := content line
  leads f.leader t || leads f.opening t || " *".toList.isPrefixOf t
    || "    ".toList.isPrefixOf t

/-- Whether a line ends a stale header and belongs to it: it is empty or
closes the comment. -/
def isEnd (line : Text) : Bool :=
  let t := content line
  t.isEmpty || closes f.closing t

/-- Whether a text opens a block: it is the opening line, or a line of
another width, at least three, filled with the character that fills the
opening line. -/
def isMarkerLine (opening t : Text) : Bool :=
  t == opening ||
    match opening with
    | [] => false
    | fill :: more => more.all (· == fill) && 3 ≤ t.length && t.all (· == fill)

end CopyrightNotice.CommentFormat
