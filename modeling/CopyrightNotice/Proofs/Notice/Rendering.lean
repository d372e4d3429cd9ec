/-
What the lines of a rendered header look like to the search.

# Bare lines

A text is bare when it has no line feed and is its own content: written
with a line feed behind it, it is one line of the file and reads as
itself. Markers without line ends and notice lines without line feeds
make bare headers (`isBare_of_mem_lines`).

# The first line

A comment is recognized again unless one of the markers can be read once
more behind the first one (`isOpener_comment`). Formats that close each
comment put a `trailer` behind the notice line, and a marker may reach
into it.
-/
import CopyrightNotice.Notice.Header
import CopyrightNotice.Proofs.Header.Opener

namespace CopyrightNotice

open Text (content)

-- ========================================================== bare lines

namespace Text

/-- A text in which no line ends. -/
def Unbroken (t : Text) : Prop := ∀ c ∈ t, isLineEnd c = false

instance (t : Text) : Decidable t.Unbroken :=
  decidable_of_iff (t.all (!isLineEnd ·) = true) (by simp [Unbroken])

/-- A text that, as a line of a file, reads as itself. -/
def IsBare (t : Text) : Prop := '\n' ∉ t ∧ content t = t

theorem Unbroken.isBare {t : Text} (h : t.Unbroken) : t.IsBare := by
  refine ⟨fun hlf => ?_, content_eq_self fun c hc =>
    h c (List.mem_of_getLast? hc)⟩
  have := h _ hlf
  cases this

/-- A text reads as itself when what stands at its end does. -/
theorem IsBare.append {front behind : Text} (hfront : '\n' ∉ front)
    (hbehind : behind.IsBare) (hne : behind ≠ []) :
    (front ++ behind).IsBare := by
  refine ⟨by simp [hfront, hbehind.1], ?_⟩
  have hlast := (List.rdropWhile_eq_self_iff.1 hbehind.2) hne
  refine List.rdropWhile_eq_self_iff.2 fun _ => ?_
  rwa [List.getLast_append_of_right_ne_nil _ _ hne]

/-- A line end is a blank, so a trimmed line does not end in one. -/
theorem isBare_of_trimEnd {t : Text} (htrim : trimEnd t = t) (hlf : '\n' ∉ t) :
    t.IsBare := by
  refine ⟨hlf, content_eq_self fun c hc => ?_⟩
  obtain ⟨init, rfl⟩ : ∃ init, t = init ++ [c] :=
    ⟨t.dropLast, (List.dropLast_append_getLast? c hc).symm⟩
  have hne : init ++ [c] ≠ [] := by simp
  have hblank := (List.rdropWhile_eq_self_iff.1 htrim) hne
  rw [List.getLast_append_singleton] at hblank
  by_contra hend
  simp only [Bool.not_eq_false, isLineEnd, Bool.or_eq_true, beq_iff_eq] at hend
  rcases hend with rfl | rfl
  · exact hblank rfl
  · exact hblank rfl

theorem isComplete_of_isBare {t : Text} (h : t.IsBare) :
    IsComplete (t ++ ['\n']) :=
  ⟨t, h.1, rfl⟩

section
variable {ls : List Text} (h : ∀ line ∈ ls, line.IsBare)
include h

theorem isComplete_of_mem_map :
    ∀ line ∈ ls.map (· ++ ['\n']), IsComplete line := by
  intro line hl
  obtain ⟨written, hw, rfl⟩ := List.mem_map.1 hl
  exact isComplete_of_isBare (h written hw)

/-- Without their ends the lines are the bare texts again. -/
theorem map_content_of_isBare : (ls.map (· ++ ['\n'])).map content = ls := by
  calc (ls.map (· ++ ['\n'])).map content
      = ls.map id := by
        rw [List.map_map]
        refine List.map_congr_left fun line hl => ?_
        exact (content_append_lf line).trans (h line hl).2
    _ = ls := List.map_id _

/-- Bare lines written one below the other are read again. -/
theorem lines_flatten_of_isBare :
    lines (ls.map (· ++ ['\n'])).flatten = ls.map (· ++ ['\n']) := by
  simpa [lines] using lines_flatten_append (isComplete_of_mem_map h) []

end

/-- Lines written one below the other end with the last of them. -/
theorem ends_flatten (ls : List Text) :
    (ls.map (· ++ ['\n'])).flatten = []
      ∨ (ls.map (· ++ ['\n'])).flatten.getLast? = some '\n' := by
  rcases List.eq_nil_or_concat' ls with rfl | ⟨init, last, rfl⟩
  · exact Or.inl rfl
  · right
    rw [List.map_append, List.flatten_append]
    simp [← List.append_assoc]

end Text

namespace CommentFormat

/-- No marker of the format has a line end in it. -/
structure Unbroken (f : CommentFormat) : Prop where
  opening : f.opening.Unbroken
  leader : f.leader.Unbroken
  closing : f.closing.Unbroken
  blank : ∀ marker ∈ f.blank, marker.Unbroken

instance (f : CommentFormat) : Decidable f.Unbroken :=
  decidable_of_iff
    (f.opening.Unbroken ∧ f.leader.Unbroken ∧ f.closing.Unbroken
      ∧ ∀ marker ∈ f.blank, marker.Unbroken)
    ⟨fun h => ⟨h.1, h.2.1, h.2.2.1, h.2.2.2⟩,
      fun h => ⟨h.opening, h.leader, h.closing, h.blank⟩⟩

variable {f : CommentFormat}

/-- The marker of a blank line breaks no line either. -/
theorem Unbroken.blankMarker (h : f.Unbroken) : f.blankMarker.Unbroken := by
  cases hb : f.blank with
  | none =>
      rw [CommentFormat.blankMarker, hb]
      exact h.leader
  | some marker =>
      rw [CommentFormat.blankMarker, hb]
      exact h.blank marker hb

/-- A comment is bare, whatever an empty line of the notice is written as,
if there is something in it. -/
theorem isBare_comment_of_ne_nil (hopening : f.opening.Unbroken)
    (hleader : f.leader.Unbroken) (hclosing : f.closing.Unbroken) {line : Text}
    (hline : line.IsBare) (hne : line ≠ []) : (f.comment line).IsBare := by
  rw [comment, if_neg hne]
  have hspace : ∀ marker : Text, marker.Unbroken → '\n' ∉ marker ++ [' '] := by
    intro marker hm
    simp [hm.isBare.1]
  -- the notice line ends the comment, or the closing marker does
  split
  · have := Text.IsBare.append (hspace _ hleader) hline hne
    simpa using this
  · split
    · have := Text.IsBare.append (hspace _ hopening) hline hne
      simpa using this
    · rename_i hend
      have hfront : '\n' ∉ f.opening ++ ' ' :: line ++ [' '] := by
        simp [hopening.isBare.1, hline.1]
      have := Text.IsBare.append hfront hclosing.isBare hend
      simpa using this

/-- To comment a bare line leaves it bare. -/
theorem isBare_comment (h : f.Unbroken) {line : Text} (hline : line.IsBare) :
    (f.comment line).IsBare := by
  by_cases hne : line = []
  · rw [comment, if_pos hne]
    exact h.blankMarker.isBare
  · exact isBare_comment_of_ne_nil h.opening h.leader h.closing hline hne

/-- Every line of a rendered notice is bare. -/
theorem isBare_of_mem_lines (h : f.Unbroken) {notice : Notice}
    (hlf : ∀ line ∈ notice.lines, '\n' ∉ line) :
    ∀ line ∈ (notice.render f).lines, line.IsBare := by
  intro line hl
  rcases List.mem_append.1 hl with hl | hl
  · obtain rfl : f.opening = line := by
      simp only [Notice.render] at hl
      split at hl <;> simp_all
    exact h.opening.isBare
  · rcases List.mem_append.1 hl with hl | hl
    · obtain ⟨written, hw, rfl⟩ := List.mem_map.1 hl
      exact isBare_comment h
        (Text.isBare_of_trimEnd (notice.trimmed _ hw) (hlf _ hw))
    · obtain rfl : line = f.closing := by
        split at hl <;> simp_all
      exact h.closing.isBare

-- ====================================================== the first line

variable (f : CommentFormat)

/-- What a comment has behind the notice line. -/
def trailer : Text :=
  if f.isWrapped && !f.closing.isEmpty then ' ' :: f.closing else []

/-- A line that is not empty stands a space behind its marker. -/
theorem comment_of_ne_nil {line : Text} (hne : line ≠ []) :
    f.comment line
      = (if f.isWrapped then f.opening else f.leader)
        ++ ' ' :: (line ++ f.trailer) := by
  rw [comment, if_neg hne, trailer]
  by_cases hw : f.isWrapped = true
  · by_cases hclosing : f.closing = [] <;> simp [hw, hclosing]
  · simp [hw]

variable {f}

/-- A line that starts with the opener's words is not empty. -/
theorem ne_nil_of_noticeOpener {line : Text} (hfirst : noticeOpener <+: line) :
    line ≠ [] := by
  rintro rfl
  cases List.prefix_nil.1 hfirst

/-- The comment of a notice's first line is recognized when neither marker
can be read on into what stands behind it. -/
theorem isOpener_of_isBare_comment {line : Text}
    (hbare : (f.comment line).IsBare) (hfirst : noticeOpener <+: line)
    (hleader : leads f.leader (' ' :: (line ++ f.trailer)) = false)
    (hopening : leads f.opening (' ' :: (line ++ f.trailer)) = false) :
    f.isOpener (f.comment line) = true := by
  refine f.isOpener_of_stripMarkers ?_
    (hfirst.trans (List.prefix_append line f.trailer))
  rw [hbare.2, f.comment_of_ne_nil (ne_nil_of_noticeOpener hfirst)]
  by_cases hw : f.isWrapped = true
  · rw [if_pos hw]
    exact f.stripMarkers_opening_append hw hopening
  · rw [if_neg hw]
    exact f.stripMarkers_leader_append hleader hopening

/-- Behind one marker, with no other to strip, the opener's words open a
header. -/
theorem isOpener_comment (h : f.Unbroken) {line : Text} (hline : line.IsBare)
    (hfirst : noticeOpener <+: line)
    (hleader : leads f.leader (' ' :: (line ++ f.trailer)) = false)
    (hopening : leads f.opening (' ' :: (line ++ f.trailer)) = false) :
    f.isOpener (f.comment line) = true :=
  isOpener_of_isBare_comment (isBare_comment h hline) hfirst hleader hopening

end CommentFormat

namespace Notice

variable {notice : Notice} {f : CommentFormat}

/-- The body starts with the first line of the notice, commented. -/
theorem head_body_render :
    (notice.render f).body.head (notice.render f).body_ne_nil
      = f.comment (notice.lines.head notice.ne_nil) := by
  have hne : notice.lines.map f.comment ≠ [] := by simp [notice.ne_nil]
  simp only [render, List.head_append_of_ne_nil hne, List.head_map]

/-- The body begins with the comment of the notice's first line. -/
theorem body_render_eq_cons :
    (notice.render f).body
      = f.comment (notice.lines.head notice.ne_nil)
        :: (notice.render f).body.tail := by
  rw [← head_body_render, List.cons_head_tail]

/-- The first line of a notice is bare: its end was trimmed. -/
theorem isBare_head (hlf : ∀ line ∈ notice.lines, '\n' ∉ line) :
    (notice.lines.head notice.ne_nil).IsBare := by
  have hmem := List.head_mem notice.ne_nil
  exact Text.isBare_of_trimEnd (notice.trimmed _ hmem) (hlf _ hmem)

end Notice

end CopyrightNotice
