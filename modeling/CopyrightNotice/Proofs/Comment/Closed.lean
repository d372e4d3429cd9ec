/-
The formats that close their comments, and what a header looks like in
them: known formats that close every line, and block comments with a star
in front of every line.

Every comment with something in it carries a comment on, and the last line
of a header ends it (`Closed.getLast_body`). What an empty line of a notice
is written as is left open for starred comments; a header with an empty
line in it has no odd lines else (`Closed.isEnd_or_isContinuation`).
-/
import CopyrightNotice.Proofs.Comment.Regular

namespace CopyrightNotice.CommentFormat

open Text (content)

/-- A format that closes its comments. -/
inductive Closed (f : CommentFormat) : Prop where
  /-- A known format without a leader, which closes every line. -/
  | wrapped {extension : Text} (hknown : known? extension = some f)
      (hw : f.isWrapped = true)
  /-- A format of block comments, with a star in front of every line. -/
  | starred (hopening : f.opening = "/*".toList) (hleader : f.leader
      = " *".toList)
      (hclosing : f.closing = " */".toList)

/-- A built-in format that wraps each line has an end for it. -/
private theorem closing_ne_nil_of_mem_catalog :
    ∀ entry ∈ catalog, entry.2.isWrapped = true → entry.2.closing ≠ [] := by
  decide +kernel

variable {f : CommentFormat} {notice : Notice}

private theorem body_render_of_isWrapped (hw : f.isWrapped = true) :
    (notice.render f).body = notice.lines.map f.comment := by
  simp [Notice.render, hw]

theorem body_render_of_closing (hw : f.isWrapped = false)
    (hclosing : f.closing ≠ []) :
    (notice.render f).body = notice.lines.map f.comment ++ [f.closing] := by
  simp [Notice.render, hw, hclosing]

namespace Closed

variable (h : f.Closed)
include h

-- ============================================================= markers

/-- No marker of a closed format breaks a line. -/
theorem unbroken :
    f.opening.Unbroken ∧ f.leader.Unbroken ∧ f.closing.Unbroken := by
  cases h with
  | wrapped hknown hw =>
      have hregular := regular_of_known? hknown
      exact ⟨hregular.unbroken.opening, hregular.unbroken.leader,
        hregular.unbroken.closing⟩
  | starred hopening hleader hclosing =>
      rw [hopening, hleader, hclosing]
      decide

/-- A closed format has an end marker. -/
theorem closing_ne_nil : f.closing ≠ [] := by
  cases h with
  | wrapped hknown hw =>
      obtain ⟨entry, hmem, rfl⟩ := mem_catalog_of_known? hknown
      exact closing_ne_nil_of_mem_catalog entry hmem hw
  | starred hopening hleader hclosing =>
      rw [hclosing]
      decide

/-- The opening line of a rendered notice is bare and opens no header
itself. -/
theorem isOpener_opening : ∀ o, (notice.render f).opening = some o →
    o.IsBare ∧ f.isOpener o = false := by
  intro o ho
  obtain rfl : f.opening = o := by
    simp only [Notice.render] at ho
    split at ho
    · exact Option.some.inj ho
    · cases ho
  refine ⟨h.unbroken.1.isBare, ?_⟩
  cases h with
  | wrapped hknown hw => exact (regular_of_known? hknown).start
  | starred hopening hleader hclosing =>
      -- the notice's first words are longer
      by_contra hopen
      have hlen :=
        (f.infix_of_isOpener (Bool.not_eq_false _ ▸ hopen)).length_le
      rw [hopening] at hlen
      exact absurd hlen (by decide)

/-- An empty line of a notice is an empty line where every line is closed. -/
theorem blankMarker_eq_nil (hw : f.isWrapped = true) : f.blankMarker = [] := by
  cases h with
  | wrapped hknown _ =>
      obtain ⟨entry, hmem, rfl⟩ := mem_catalog_of_known? hknown
      rw [blankMarker, blank_of_mem_catalog entry hmem]
      exact List.isEmpty_iff.1 hw
  | starred hopening hleader hclosing =>
      rw [isWrapped, hleader] at hw
      cases hw

-- ============================================================ comments

variable {line : Text}

/-- To comment a bare line leaves it bare. -/
theorem isBare_comment (hline : line.IsBare) (hne : line ≠ []) :
    (f.comment line).IsBare := by
  obtain ⟨hopening, hleader, hclosing⟩ := h.unbroken
  exact isBare_comment_of_ne_nil hopening hleader hclosing hline hne

/-- The first line of a notice opens a header once it is commented. -/
theorem isOpener_comment (hline : line.IsBare)
    (hfirst : noticeOpener <+: line) : f.isOpener (f.comment line) = true := by
  have hbare := h.isBare_comment hline (ne_nil_of_noticeOpener hfirst)
  cases h with
  | wrapped hknown hw =>
      have hregular := regular_of_known? hknown
      exact isOpener_of_isBare_comment hbare hfirst (leads_blank
        hregular.leader _)
        (leads_blank hregular.opening _)
  | starred hopening hleader hclosing =>
      obtain ⟨words, rfl⟩ := hfirst
      refine isOpener_of_isBare_comment hbare (List.prefix_append _ _) ?_ ?_
      · rw [hleader]
        rfl
      · rw [hopening]
        rfl

/-- A comment with something in it carries a comment on. -/
theorem isContinuation_comment (hline : line.IsBare) (hne : line ≠ []) :
    f.isContinuation (f.comment line) = true := by
  refine isContinuation_of_leads (h.isBare_comment hline hne) ?_
  rw [f.comment_of_ne_nil hne]
  cases h with
  | wrapped hknown hw =>
      have hopening : f.opening ≠ [] :=
        (regular_of_known? hknown).marked.resolve_left
          (not_not.2 (List.isEmpty_iff.1 hw))
      rw [if_pos hw]
      exact Or.inr (leads_append hopening _)
  | starred hopening hleader hclosing =>
      have hw : ¬ f.isWrapped = true := by
        rw [isWrapped, hleader]
        decide
      rw [if_neg hw]
      exact Or.inl (leads_append (by rw [hleader]; decide) _)

-- =============================================================== body

/-- The closing line continues the comment too: it starts with what leads a
line. -/
theorem isContinuation_closing (hw : f.isWrapped = false) :
    f.isContinuation f.closing = true := by
  refine isContinuation_of_leads h.unbroken.2.2.isBare (Or.inl ?_)
  cases h with
  | wrapped hknown hwrapped =>
      rw [hw] at hwrapped
      cases hwrapped
  | starred hopening hleader hclosing =>
      rw [hleader, hclosing]
      rfl

/-- The last line of a header ends it, and carries the comment on. -/
theorem getLast_body (hlf : ∀ line ∈ notice.lines, '\n' ∉ line) :
    ∃ last, (notice.render f).body.getLast? = some last
      ∧ last.IsBare
      ∧ last ≠ []
      ∧ f.isEnd last = true
      ∧ f.isContinuation last = true := by
  have ends : ∀ {last : Text}, last.IsBare → f.closing <:+ last →
      f.isEnd last = true := by
    intro last hbare hsuffix
    rw [isEnd, hbare.2, closes, List.isSuffixOf_iff_suffix.2 hsuffix]
    simp [h.closing_ne_nil]
  by_cases hw : f.isWrapped = true
  · -- the comment of the notice's last line
    have hmem := List.getLast_mem notice.ne_nil
    have hne := notice.last_ne_nil
    have hbare := Text.isBare_of_trimEnd (notice.trimmed _ hmem) (hlf _ hmem)
    have hcomment := h.isBare_comment hbare hne
    refine ⟨f.comment (notice.lines.getLast notice.ne_nil), ?_, hcomment, ?_,
      ends hcomment ?_, h.isContinuation_comment hbare hne⟩
    · rw [body_render_of_isWrapped hw, List.getLast?_map,
        List.getLast?_eq_some_getLast notice.ne_nil, Option.map_some]
    · rw [f.comment_of_ne_nil hne]
      simp
    · have htrailer : f.trailer = ' ' :: f.closing := by
        simp [trailer, hw, h.closing_ne_nil]
      rw [f.comment_of_ne_nil hne, htrailer]
      exact ⟨f.opening ++ ' '
        :: (notice.lines.getLast notice.ne_nil ++ [' ']), by simp [hw]⟩
  · -- the closing line
    have hbare := h.unbroken.2.2.isBare
    have hw := Bool.eq_false_iff.2 hw
    refine ⟨f.closing, ?_, hbare, h.closing_ne_nil, ends hbare List.suffix_rfl,
      h.isContinuation_closing hw⟩
    rw [body_render_of_closing hw h.closing_ne_nil, List.getLast?_concat]

/-- The lines of a body carry the comment on, but for the empty lines of the
notice. -/
theorem of_mem_body (hlf : ∀ line ∈ notice.lines, '\n' ∉ line) :
    ∀ line ∈ (notice.render f).body,
      f.isContinuation line = true ∨ line = f.blankMarker := by
  intro line hl
  rcases List.mem_append.1 hl with hl | hl
  · obtain ⟨written, hmem, rfl⟩ := List.mem_map.1 hl
    by_cases hne : written = []
    · right
      rw [comment, if_pos hne]
    · left
      exact h.isContinuation_comment
        (Text.isBare_of_trimEnd (notice.trimmed _ hmem) (hlf _ hmem)) hne
  · left
    split at hl
    · rename_i hw
      rw [Bool.and_eq_true, Bool.not_eq_true'] at hw
      rw [List.mem_singleton.1 hl]
      exact h.isContinuation_closing hw.1
    · cases hl

/-- With empty lines in it, a header has none but these and lines that carry
the comment on. -/
theorem isEnd_or_isContinuation (hlf : ∀ line ∈ notice.lines, '\n' ∉ line)
    (hnil : [] ∈ (notice.render f).body) :
    ∀ line ∈ (notice.render f).body,
      f.isEnd line = true ∨ f.isContinuation line = true := by
  have hblank : f.blankMarker = [] := by
    rcases h.of_mem_body hlf [] hnil with hcont | hblank
    · rw [f.isContinuation_of_content_eq_nil rfl] at hcont
      cases hcont
    · exact hblank.symm
  intro line hl
  rcases h.of_mem_body hlf line hl with hcont | rfl
  · exact Or.inr hcont
  · left
    rw [hblank]
    rfl

/-- A format that wraps nothing opens with its start marker. -/
theorem opening_render (hw : f.isWrapped = false) :
    (notice.render f).opening = some f.opening := by
  cases h with
  | wrapped hknown hwrapped =>
      rw [hw] at hwrapped
      cases hwrapped
  | starred hopening hleader hclosing => simp [Notice.render, hw, hopening]

/-- The opening line of a header stands in a body as an empty line only. -/
theorem blankMarker_eq_opening (hw : f.isWrapped = false)
    (hmem : f.opening ∈ (notice.render f).body) :
    f.blankMarker = f.opening := by
  cases h with
  | wrapped hknown hwrapped =>
      rw [hw] at hwrapped
      cases hwrapped
  | starred hopening hleader hclosing =>
      rw [body_render_of_closing hw (by rw [hclosing]; decide)] at hmem
      rcases List.mem_append.1 hmem with hmem | hmem
      · obtain ⟨written, -, hwritten⟩ := List.mem_map.1 hmem
        by_cases hne : written = []
        · rw [comment, if_pos hne] at hwritten
          exact hwritten
        · rw [f.comment_of_ne_nil hne, hw, hleader, hopening] at hwritten
          cases hwritten
      · rw [List.mem_singleton, hopening, hclosing] at hmem
        cases hmem

end Closed

end CopyrightNotice.CommentFormat
