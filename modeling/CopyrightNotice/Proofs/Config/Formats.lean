/-
Headers in configured formats.

A configuration is turned down if one of its formats has neither a leader
nor an opening marker, and nothing more is asked of markers. They may have
line ends in them, and they may begin with the blank that stands between a
marker and the notice. A header written with such markers need not be read
again, and an update then writes another one above it.

What has to hold for a header to be read again, where nothing but its block
is in the file, is this (`current_block_iff`): each of its lines is a line
of the file as it was rendered, and the first line of the notice is an
opener. It is enough that no marker has a line end in it and that leader
and opening marker do not begin with a blank.
-/
import CopyrightNotice.Config.Basic
import CopyrightNotice.Proofs.Header.RoundTrip
import CopyrightNotice.Proofs.Header.Stale
import CopyrightNotice.Proofs.Header.Update
import Mathlib

namespace CopyrightNotice

open Text (content)

-- ================================================================ blocks

/-- The contents of a text's lines have no line ends of their own. -/
private theorem Text.isBare_content {t line : Text} (h : line ∈ lines t) :
    (content line).IsBare := by
  refine ⟨?_, Text.content_content line⟩
  rcases Text.isComplete_or_of_mem_lines h with ⟨front, hfront, rfl⟩ | hbare
  · rw [Text.content_append_lf]
    exact fun hlf => hfront ((Text.dropEndWhile_isPrefix _ front).subset hlf)
  · exact fun hlf => hbare ((Text.dropEndWhile_isPrefix _ line).subset hlf)

namespace Recognizer

variable {r : Recognizer} {t : Text} {p : Regions}

/-- The expected lines stand in a current file as they were rendered. -/
private theorem isBare_of_current (h : r.parse t = .ok p)
    (hc : p.verdict = .current) : ∀ line ∈ r.header.lines, line.IsBare := by
  intro line hl
  obtain ⟨real, hreal, rfl⟩ :=
    List.mem_map.1 ((lines_prefix_of_current h hc).subset hl)
  refine Text.isBare_content (t := t) ?_
  rw [← append_regions r t, ← eq_regions_of_parse h]
  exact List.mem_append_left _ (List.mem_append_right _ hreal)

/-- The first line of the notice in a current file is an opener. -/
private theorem isOpener_of_current (h : r.parse t = .ok p)
    (hc : p.verdict = .current) :
    r.format.isOpener (r.header.body.head r.header.body_ne_nil) = true := by
  obtain ⟨more, hread⟩ := lines_prefix_of_current h hc
  rw [Header.lines, List.append_assoc] at hread
  obtain ⟨line, hline, hopen⟩ := headed_of_parse h (by simp [hc])
  rw [openerPlace_of_map_content hread.symm] at hline
  have hfirst : some (content line) = r.header.body.head? :=
    calc some (content line)
        = (p.header.map content)[r.header.opening.toList.length]? := by
          rw [List.getElem?_map, hline, Option.map_some]
      _ = (r.header.body ++ more).head? := by
          rw [← hread, List.getElem?_append_right (Nat.le_refl _),
            Nat.sub_self, List.head?_eq_getElem?]
      _ = r.header.body.head? :=
        List.head?_append_of_ne_nil _ r.header.body_ne_nil
  rw [List.head?_eq_some_head r.header.body_ne_nil] at hfirst
  rwa [← Option.some.inj hfirst, CommentFormat.isOpener_content]

/-- A block with nothing around it is read again if its lines are bare and
the first line of the notice is an opener. -/
theorem parse_block (hbare : ∀ line ∈ r.header.lines, line.IsBare)
    (hfirst : r.format.isOpener (r.header.body.head r.header.body_ne_nil)
      = true) :
    r.parse r.header.block
      = .ok ⟨.current, [], r.header.blockLines, [], none⟩ := by
  have hlines : Text.lines r.header.block = r.header.blockLines := by
    have happend := Header.lines_block_append hbare []
    rwa [List.append_nil, show Text.lines [] = [] from rfl,
      List.append_nil] at happend
  refine parse_of_run (by simpa using hlines) ?_
  have hrun := run_of_lines .scanning
    (fun {line opening} ho hline => step_of_opening_scanning ho hline) hfirst
    (Header.map_content_lines hbare)
  have hterm : r.format.isTerminator ['\n']
    = true := by simp [CommentFormat.isTerminator]
  have hmatched := run_concat_terminator hrun hterm
  rw [List.nil_append, run_append, Header.blockLines, hmatched, run_matched]
  simp [Search.held]

/-- A block with nothing around it is read again exactly then. -/
theorem current_block_iff (h : r.parse r.header.block = .ok p) :
    p.verdict = .current
      ↔ (∀ line ∈ r.header.lines, line.IsBare)
        ∧ r.format.isOpener (r.header.body.head r.header.body_ne_nil)
          = true := by
  constructor
  · exact fun hc => ⟨isBare_of_current h hc, isOpener_of_current h hc⟩
  · rintro ⟨hbare, hfirst⟩
    rw [parse_block hbare hfirst] at h
    cases h
    rfl

end Recognizer

-- ======================================================== configurations

namespace Config

variable {tree : Tree} {path : Path} {c : Config} {extension : Text}
  {f : CommentFormat}

private theorem formatProblem?_of_fault? (h : c.fault? = none)
    (hf : (extension, f) ∈ c.formats) : formatProblem? extension f = none := by
  unfold fault? at h
  split at h
  · cases h
  · rename_i hnone
    simpa using List.findSome?_eq_none_iff.1 hnone _ hf

/-- The formats of a configuration that is not turned down are those of its
document, under their extensions in lowercase, and none has a problem. -/
private theorem formatProblem?_of_read (h : read tree path = .ok c)
    (hf : (extension, f) ∈ c.formats) :
    ∃ written, extension = Text.lowercase written
      ∧ formatProblem? written f = none := by
  unfold read at h
  split at h
  · cases h
  · unfold ofText at h
    split at h
    · cases h
    · split at h
      · cases h
      · rename_i hfault
        cases h
        obtain ⟨⟨written, format⟩, hmem, heq⟩ := List.mem_map.1 hf
        cases heq
        exact ⟨written, rfl, formatProblem?_of_fault? hfault hmem⟩

/-- Each of its formats has a leader or an opening marker. -/
private theorem marker_ne_nil_of_read (h : read tree path = .ok c)
    (hf : (extension, f) ∈ c.formats) : f.leader ≠ [] ∨ f.opening ≠ [] := by
  obtain ⟨written, -, hproblem⟩ := formatProblem?_of_read h hf
  unfold formatProblem? at hproblem
  split at hproblem
  · cases hproblem
  · split at hproblem
    · cases hproblem
    · rename_i hmarkers
      exact not_and_or.1 hmarkers

end Config

-- ================================================================ result

/-- Whether the headers of a configured format are read again. A
configuration that is not turned down has a leader or an opening marker in
each of its formats. A file that is the block of a notice in such a format
is up to date, and then left as it is, exactly if each line of the block is
a line of the file as it was rendered and the first line of the notice is
an opener; it is, if no marker has a line end in it and neither leader nor
opening marker begins with a blank. -/
theorem configured_header_recognized_iff {tree : Tree} {path : Path}
    {c : Config} (hread : Config.read tree path = .ok c) {extension : Text}
    {f : CommentFormat} (hf : (extension, f) ∈ c.formats) {notice : Notice}
    (hnotice : notice.isRecognizable = true)
    (hlf : ∀ line ∈ notice.lines, '\n' ∉ line) :
    (f.leader ≠ [] ∨ f.opening ≠ [])
      ∧ ∃ p, (Recognizer.ofNotice notice f).parse (notice.render f).block
          = .ok p
        ∧ (p.verdict = .current
          ↔ (∀ line ∈ (notice.render f).lines, line.IsBare)
            ∧ f.isOpener (f.comment (notice.lines.head notice.ne_nil)) = true)
        ∧ ((Recognizer.ofNotice notice f).correction? p = none
          ↔ p.verdict = .current)
        ∧ (f.Unbroken → f.leader.head? ≠ some ' ' →
          f.opening.head? ≠ some ' ' →
          p.verdict = .current) := by
  obtain ⟨p, hp⟩ : ∃ p,
      (Recognizer.ofNotice notice f).parse (notice.render f).block = .ok p :=
    ⟨_, Recognizer.parse_eq _ _⟩
  have hiff : p.verdict = .current
      ↔ (∀ line ∈ (notice.render f).lines, line.IsBare)
        ∧ f.isOpener (f.comment (notice.lines.head notice.ne_nil)) = true := by
    rw [← Notice.head_body_render]
    exact Recognizer.current_block_iff hp
  refine ⟨Config.marker_ne_nil_of_read hread hf, p, hp, hiff,
    Recognizer.correction?_eq_none_iff, fun hunbroken hleader hopening =>
    hiff.2 ⟨?_, ?_⟩⟩
  · exact CommentFormat.isBare_of_mem_lines hunbroken hlf
  · exact CommentFormat.isOpener_comment hunbroken (Notice.isBare_head hlf)
      (List.isPrefixOf_iff_prefix.1 hnotice)
      (CommentFormat.leads_blank hleader _)
      (CommentFormat.leads_blank hopening _)

/-- A tree with a configuration of one format, for notices that stand
indented under two dots. -/
def indented (indent : String) : Tree where
  entries := [([Utf8.encode "c.toml".toList],
    .file (Utf8.encode
    ("[formats.RST]\nstart = '..'\nline = '" ++ indent ++ "'\n").toList))]

private theorem read_indented_by_three :
    Config.read (indented "   ") (Path.ofString "/c.toml")
      = .ok { formats := [("rst".toList,
        { opening := "..".toList, leader := "   ".toList })] } := by
  cbv

private theorem read_indented_by_one :
    Config.read (indented " ") (Path.ofString "/c.toml")
      = .ok { formats := [("rst".toList,
        { opening := "..".toList, leader := " ".toList })] } := by
  cbv

/-- Behind three blanks and one more stands no further leader. -/
theorem configured_header_recognized_of_three_blanks : ∃ p,
      (Recognizer.ofNotice
            ⟨["Copyright (c) A".toList, "B".toList], by simp, by decide,
              by decide⟩
            { opening := "..".toList, leader := "   ".toList }).parse
            "..\n    Copyright (c) A\n    B\n\n".toList
          = .ok p
        ∧ p.verdict = .current := by
  obtain ⟨-, p, hp, hiff, -⟩ :=
    configured_header_recognized_iff read_indented_by_three
      (List.mem_singleton.2 rfl)
      (show Notice.isRecognizable
        ⟨["Copyright (c) A".toList, "B".toList], by simp, by decide, by decide⟩
        = true by decide)
      (by decide)
  refine ⟨p, hp, hiff.2 ⟨?_, by decide +kernel⟩⟩
  exact CommentFormat.isBare_of_mem_lines (by decide) (by decide)

/-- Not every configuration that is not turned down can be used. One blank
as a leader takes the blank behind it for another leader, and the block is
no header. -/
theorem not_forall_configured_header_recognized :
    ¬ ∀ (tree : Tree) (path : Path) (c : Config),
      Config.read tree path = .ok c →
      ∀ (extension : Text) (f : CommentFormat), (extension, f) ∈ c.formats →
      ∀ notice : Notice, notice.isRecognizable = true →
        (∀ line ∈ notice.lines, '\n' ∉ line) →
        ∃ p, (Recognizer.ofNotice notice f).parse (notice.render f).block
            = .ok p
          ∧ p.verdict = .current := by
  intro h
  obtain ⟨p, hp, hcurrent⟩ :=
    h _ _ _ read_indented_by_one _ _ (List.mem_singleton.2 rfl)
      ⟨["Copyright (c) A".toList], by simp, by decide, by decide⟩
        (by decide) (by decide)
  rw [Recognizer.eq_regions_of_parse hp] at hcurrent
  exact absurd hcurrent (by decide +kernel)

end CopyrightNotice
