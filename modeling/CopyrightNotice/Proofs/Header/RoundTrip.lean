/-
What is written is read again: a header's block between any texts, the
one in front free of openers, is found where it stands, and the texts
stay as they were (`parse_block_iff`).

# Closed comments

The exception are formats that open and close every line. Behind the
opening marker of a comment stand a blank, the notice line, a blank and
the closing marker, and when the opening marker can be read once more
from the blank on, the comment need not be an opener. Whether it is
decides the round trip.
-/
import CopyrightNotice.Proofs.Header.Opening

namespace CopyrightNotice

open Text (content)

namespace Recognizer

variable {r : Recognizer}

-- ============================================================== regions

/-- In a format without an opening line, a header that begins with the
expected lines shows that the first of them is an opener. -/
private theorem isOpener_head_of_opens (ho : r.header.opening = none)
    {lines more : List Text} (h : r.Opens lines)
    (hlines : lines.map content = r.header.lines ++ more) :
    r.format.isOpener (r.header.body.head r.header.body_ne_nil) = true := by
  obtain ⟨front, line, rest, rfl, hfront, hopen⟩ := h
  have hnil : front = [] := by
    rcases hfront with rfl | ⟨m, rfl, hm⟩
    · rfl
    · simp [isMarker, ho] at hm
  have hline : content line = r.header.body.head r.header.body_ne_nil := by
    have hhead := congrArg List.head? hlines
    rw [hnil, Header.lines, ho, Option.toList_none, List.nil_append,
      List.nil_append, List.head?_append,
      List.head?_eq_some_head r.header.body_ne_nil] at hhead
    exact Option.some.inj hhead
  rw [← hline, CommentFormat.isOpener_content]
  exact hopen

/-- The split of a text whose run matches and settles its lines region by
region, the empty line below them behind the header. -/
theorem parse_of_run {t : Text} {before header after : List Text}
    (hlines : Text.lines t = before ++ header ++ after)
    (hrun : r.run .scanning (before ++ header ++ (after ++ [[]]))
      = (before.map .before ++ header.map .header
        ++ (after ++ [[]]).map .after, .matched)) :
    r.parse t = .ok ⟨.current, before, header, after, none⟩ := by
  have keep : ∀ {ls : List Text}, ls ⊆ Text.lines t →
      ls.filter (fun line : Text => !line.isEmpty) = ls := by
    intro ls hls
    refine List.filter_eq_self.2 fun line hl => ?_
    simpa using Text.ne_nil_of_mem_lines (hls hl)
  have hbefore : before ⊆ Text.lines t := by
    intro line hl
    simp [hlines, hl]
  have hheader : header ⊆ Text.lines t := by
    intro line hl
    simp [hlines, hl]
  have hafter : after ⊆ Text.lines t := by
    intro line hl
    simp [hlines, hl]
  have hclosed : t.closedLines = before ++ header ++ (after ++ [[]]) := by
    rw [Text.closedLines, hlines, List.append_assoc]
  have hsettled : Settled.of (before.map .before ++ header.map .header
      ++ (after ++ [[]]).map .after)
      = ⟨before ++ header ++ (after ++ [[]]), before, header,
      after ++ [[]], none⟩ := by
    simp only [Settled.of_append, Settled.of_map_before, Settled.of_map_header,
      Settled.of_map_after]
    simp
  rw [parse_eq, regions, hclosed, hrun]
  show Except.ok (Regions.mk .current
    (((Settled.of _).before ++ []).filter fun line : Text => !line.isEmpty)
    ((Settled.of _).header.filter fun line : Text => !line.isEmpty)
    ((Settled.of _).after.filter fun line : Text => !line.isEmpty)
    (Settled.of _).mismatch) = _
  rw [hsettled, List.append_nil, keep hbefore, keep hheader,
    List.filter_append, keep hafter]
  simp

end Recognizer

-- =============================================================== result

/-- A block between two texts, the one in front free of openers, is read
again as it was written, with the texts before and behind it, exactly if
the first comment is an opener; only a format that closes every comment
can fail to make it one. -/
theorem parse_block_iff {notice : Notice} {f : CommentFormat} (hf : f.Unbroken)
    (hnotice : notice.isRecognizable = true)
    (hlf : ∀ line ∈ notice.lines, '\n' ∉ line)
    (hleader : CommentFormat.leads f.leader
        (' ' :: notice.lines.head notice.ne_nil)
      = false)
    (hopening : CommentFormat.leads f.opening
        (' ' :: notice.lines.head notice.ne_nil)
      = false)
    (hstart : ∀ o, (notice.render f).opening = some o → f.isOpener o = false)
    {pre : Text} (hpre : pre = [] ∨ pre.getLast? = some '\n')
    (hnone : ∀ line ∈ Text.lines pre, f.isOpener line = false) (post : Text) :
    (Recognizer.ofNotice notice f).parse
          (pre ++ (notice.render f).block ++ post)
        = .ok ⟨.current, Text.lines pre, (notice.render f).blockLines,
          Text.lines post, none⟩
      ↔ (f.isWrapped = true → f.closing ≠ [] →
        f.isOpener (f.comment (notice.lines.head notice.ne_nil)) = true) := by
  have hbare := CommentFormat.isBare_of_mem_lines hf hlf
  constructor
  · -- a header that is found opens with an opener, and without an opening line
    -- that is the first line of the body
    intro hparse hwrapped hclosing
    have hopens := Recognizer.opens_of_parse hparse (by simp)
    have hnone : (notice.render f).opening = none := by
      simp [Notice.render, hwrapped]
    rw [← Notice.head_body_render]
    exact Recognizer.isOpener_head_of_opens hnone hopens
      (Header.map_content_blockLines hbare)
  · intro hclosed
    have hfirst : f.isOpener (f.comment (notice.lines.head notice.ne_nil))
        = true := by
      by_cases h : f.isWrapped = true ∧ f.closing ≠ []
      · exact hclosed h.1 h.2
      · -- with no trailer the first line is no longer than its words
        have htrailer : f.trailer = [] := by
          rw [not_and_or] at h
          rcases h with h | h
          · simp [CommentFormat.trailer, h]
          · simp [CommentFormat.trailer, not_not.1 h]
        refine CommentFormat.isOpener_comment hf (Notice.isBare_head hlf)
          (List.isPrefixOf_iff_prefix.1 hnotice) ?_ ?_
        · rwa [htrailer, List.append_nil]
        · rwa [htrailer, List.append_nil]
    have hsplit : Text.lines (pre ++ (notice.render f).block ++ post)
        = Text.lines pre ++ (notice.render f).blockLines
        ++ Text.lines post := by
      rw [List.append_assoc, Text.lines_append hpre,
        Header.lines_block_append hbare, List.append_assoc]
    -- no line above opens a header, so the search still waits at the block
    have hwait : (Recognizer.ofNotice notice f).Waiting
        ((Recognizer.ofNotice notice f).run .scanning (Text.lines pre)).2 :=
      Recognizer.waiting_of_no_opener .scanning hnone
    have hread : ((notice.render f).lines.map (· ++ ['\n'])).map content
        = (notice.render f).lines := Header.map_content_lines hbare
    rw [← Notice.head_body_render] at hfirst
    have hreadable : (Recognizer.ofNotice notice f).Readable :=
      ⟨hbare, hstart, hfirst⟩
    refine Recognizer.parse_of_run hsplit ?_
    exact Recognizer.run_around hreadable hwait hread rfl (Text.lines post
      ++ [[]])

/-- The block of a two-line notice between a shell script's first line and
its commands. -/
theorem parse_block_of_script :
    (Recognizer.ofNotice
        ⟨["Copyright (c) 2024 Example".toList, "All rights reserved.".toList],
          by simp, by decide, by decide⟩
        (CommentFormat.banner '#' "#")).parse
        ("#!/bin/sh\n".toList
          ++ (List.replicate 80 '#'
            ++ "\n# Copyright (c) 2024 Example\n".toList
            ++ "# All rights reserved.\n\n".toList) ++ "exit 0".toList)
      = .ok ⟨.current, ["#!/bin/sh\n".toList],
        [List.replicate 80 '#' ++ ['\n'],
          "# Copyright (c) 2024 Example\n".toList,
          "# All rights reserved.\n".toList, ['\n']],
        ["exit 0".toList], none⟩ :=
  (parse_block_iff
    (by decide) (by decide) (by decide) (by decide) (by decide)
    (by decide +kernel) (Or.inr (by decide)) (by decide +kernel)
    "exit 0".toList).2
    (fun hwrapped => Bool.noConfusion hwrapped)

/-- Not every block is read again: where the opening marker can be read
once more behind itself, up into the closing marker, the comment is no
opener, although the notice line alone does not begin like the marker. -/
theorem not_forall_parse_block : ¬ ∀ (notice : Notice) (f : CommentFormat),
      f.Unbroken → notice.isRecognizable = true →
      (∀ line ∈ notice.lines, '\n' ∉ line) →
      CommentFormat.leads f.leader (' ' :: notice.lines.head notice.ne_nil)
        = false →
      CommentFormat.leads f.opening (' ' :: notice.lines.head notice.ne_nil)
        = false →
      (∀ o, (notice.render f).opening = some o → f.isOpener o = false) →
      ∀ pre : Text, (pre = [] ∨ pre.getLast? = some '\n') →
        (∀ line ∈ Text.lines pre, f.isOpener line = false) →
        ∀ post : Text, (Recognizer.ofNotice notice f).parse
            (pre ++ (notice.render f).block ++ post)
          = .ok ⟨.current, Text.lines pre, (notice.render f).blockLines,
            Text.lines post, none⟩ := by
  intro h
  have hparse := h ⟨["Copyright (c) A".toList], by simp, by decide, by decide⟩
    { opening := " Copyright (c) A *".toList, closing := "*/".toList }
    (by decide) (by decide) (by decide) (by decide) (by decide)
      (by decide +kernel)
    [] (Or.inl rfl) (by decide) []
  have hverdict :=
    congrArg Regions.verdict (Recognizer.eq_regions_of_parse hparse)
  exact absurd hverdict (by decide +kernel)

end CopyrightNotice
