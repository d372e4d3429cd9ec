/-
A copyright notice: the lines that every file is to carry. Trailing
blanks of a line and empty lines at the end are not part of it, and a
notice has at least one line; the type says so, and `Notice.ofLines?`
is the one way to make one from lines as they were written.
-/
import CopyrightNotice.Text.Basic

namespace CopyrightNotice

/-- The words that a header is recognized by. -/
def noticeOpener : Text := "Copyright (c)".toList

/-- The lines of a notice. -/
structure Notice where
  lines : List Text
  ne_nil : lines ≠ []
  trimmed : ∀ line ∈ lines, Text.trimEnd line = line
  last_ne_nil : lines.getLast ne_nil ≠ []

namespace Notice

/-- The notice in the given lines: each without its trailing blanks, and
none empty at the end. There is none in blank lines. -/
def ofLines? (written : List Text) : Option Notice :=
  let lines := Text.dropEndWhile List.isEmpty (written.map Text.trimEnd)
  if h : lines = [] then none
  else some {
    lines
    ne_nil := h
    trimmed := by
      intro line hl
      have := (Text.dropEndWhile_isPrefix List.isEmpty
          (written.map Text.trimEnd)).subset hl
      obtain ⟨w, -, rfl⟩ := List.mem_map.1 this
      exact Text.trimEnd_trimEnd w
    last_ne_nil := by
      have := Text.not_of_getLast_dropEndWhile h
      simpa using this }

/-- Whether headers made from the notice will be recognized again. -/
def isRecognizable (notice : Notice) : Bool :=
  noticeOpener.isPrefixOf (notice.lines.head notice.ne_nil)

end Notice

end CopyrightNotice
