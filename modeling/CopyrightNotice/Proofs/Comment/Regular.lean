/-
What the known formats have in common, as far as the search for a header
depends on it: `Regular`, checked once for the catalog
(`regular_of_known?`) and then used through its consequences for
rendered headers. No notice makes a regular format render a header that
would not be recognized by its first lines (`Regular.isOpener_comment`,
`Regular.isContinuation_head`).

Those of them that have a leader are `Prefixed`: their headers have the
leader in front of every line of the notice and nothing below it, so the
headers tell the notices apart (`Prefixed.lines_prefix_iff`).
-/
import CopyrightNotice.Comment.Catalog
import CopyrightNotice.Proofs.Notice.Rendering

namespace CopyrightNotice.CommentFormat

-- ============================================================= regular

/-- A format that has markers, none of them with a line end or in need of
a blank in front, whose opening marker starts no notice and whose closing
marker, if it has one, closes every line. -/
structure Regular (f : CommentFormat) : Prop where
  unbroken : f.Unbroken
  marked : f.leader ≠ [] ∨ f.opening ≠ []
  leader : f.leader.head? ≠ some ' '
  opening : f.opening.head? ≠ some ' '
  start : f.isOpener f.opening = false
  closing : f.closing = [] ∨ f.isWrapped = true

instance (f : CommentFormat) : Decidable f.Regular :=
  decidable_of_iff
    (f.Unbroken ∧ (f.leader ≠ [] ∨ f.opening ≠ []) ∧ f.leader.head? ≠ some ' '
      ∧ f.opening.head? ≠ some ' ' ∧ f.isOpener f.opening = false
      ∧ (f.closing = [] ∨ f.isWrapped = true))
    ⟨fun ⟨h₁, h₂, h₃, h₄, h₅, h₆⟩ => ⟨h₁, h₂, h₃, h₄, h₅, h₆⟩,
      fun h => ⟨h.unbroken, h.marked, h.leader, h.opening, h.start, h.closing⟩⟩

/-- The built-in formats are regular. -/
private theorem regular_of_mem_catalog :
    ∀ entry ∈ catalog, entry.2.Regular := by
  decide +kernel

/-- A known format is one of the catalog's. -/
theorem mem_catalog_of_known? {extension : Text} {f : CommentFormat}
    (h : known? extension = some f) : ∃ entry ∈ catalog, entry.2 = f := by
  obtain ⟨entry, hfind, hf⟩ := Option.map_eq_some_iff.1 h
  exact ⟨entry, List.mem_of_find?_eq_some hfind, hf⟩

/-- All known formats are regular. -/
theorem regular_of_known? {extension : Text} {f : CommentFormat}
    (h : known? extension = some f) : f.Regular := by
  obtain ⟨entry, hmem, rfl⟩ := mem_catalog_of_known? h
  exact regular_of_mem_catalog entry hmem

-- ==================================================== rendered headers

variable {f : CommentFormat}

/-- A comment begins with a marker that carries it on. -/
theorem isContinuation_of_leads {line : Text} (hbare : line.IsBare)
    (h : leads f.leader line = true ∨ leads f.opening line = true) :
    f.isContinuation line = true := by
  rw [isContinuation, hbare.2]
  rcases h with h | h <;> simp [h]

namespace Regular

variable (h : f.Regular) {notice : Notice}
include h

/-- The first line of a notice opens a header once it is commented. -/
theorem isOpener_comment {line : Text} (hline : line.IsBare)
    (hfirst : noticeOpener <+: line) : f.isOpener (f.comment line) = true :=
  CommentFormat.isOpener_comment h.unbroken hline hfirst
    (leads_blank h.leader _) (leads_blank h.opening _)

/-- The opening line of a rendered notice opens no header itself. -/
theorem isOpener_opening : ∀ o, (notice.render f).opening = some o →
    f.isOpener o = false := by
  intro o ho
  simp only [Notice.render] at ho
  split at ho
  · cases ho
    exact h.start
  · cases ho

/-- The first line of a header carries on the comment above it. -/
theorem isContinuation_head (hlf : ∀ line ∈ notice.lines, '\n' ∉ line)
    (hne : notice.lines.head notice.ne_nil ≠ []) :
    ∀ line, (notice.render f).lines.head? = some line →
      f.isContinuation line = true := by
  intro line hline
  have hbare :=
    isBare_of_mem_lines h.unbroken hlf line (List.mem_of_head? hline)
  refine isContinuation_of_leads hbare ?_
  by_cases hopen : !f.isWrapped && !f.opening.isEmpty
  · -- the opening line itself
    obtain rfl : f.opening = line := by
      simpa [Header.lines, Notice.render, hopen] using hline
    right
    have hopening : f.opening ≠ [] := by
      simp at hopen
      exact hopen.2
    simpa using leads_append hopening []
  · -- the comment of the first notice line
    have hbody : (notice.render f).lines.head?
        = (notice.render f).body.head? := by
      simp [Header.lines, Notice.render, hopen]
    rw [hbody, List.head?_eq_some_head (notice.render f).body_ne_nil,
      Notice.head_body_render, f.comment_of_ne_nil hne] at hline
    obtain rfl := Option.some.inj hline
    by_cases hw : f.isWrapped = true
    · have hopening : f.opening ≠ [] :=
        h.marked.resolve_left (not_not.2 (List.isEmpty_iff.1 hw))
      right
      rw [if_pos hw]
      exact leads_append hopening _
    · have hleader : f.leader ≠ [] := fun hnil => hw (List.isEmpty_iff.2 hnil)
      left
      rw [if_neg hw]
      exact leads_append hleader _

/-- Every line of a header may also stand right below one. -/
theorem isTerminator_of_mem_lines :
    ∀ line ∈ (notice.render f).lines, line.IsBare →
      f.isTerminator line = true := by
  intro line hl hbare
  rw [isTerminator_iff, hbare.2]
  rcases h.closing with hclosing | hw
  · right
    left
    rw [hclosing]
    exact List.nil_suffix
  · have hl : ∃ written ∈ notice.lines, f.comment written = line := by
      simpa [Header.lines, Notice.render, hw] using hl
    obtain ⟨written, -, rfl⟩ := hl
    by_cases hne : written = []
    · right
      right
      rw [hne, comment, if_pos rfl]
    · by_cases hclosing : f.closing = []
      · right
        left
        rw [hclosing]
        exact List.nil_suffix
      · right
        left
        rw [comment, if_neg hne, if_neg (by simp [hw]), if_neg hclosing]
        exact ⟨f.opening ++ ' ' :: written ++ [' '], by simp⟩

end Regular

-- ============================================================ prefixed

/-- A regular format with a leader in front of every line of a notice, the
empty ones included, and without a closing line. -/
structure Prefixed (f : CommentFormat) : Prop extends f.Regular where
  leader_ne_nil : f.leader ≠ []
  closing_eq_nil : f.closing = []
  blank_eq_none : f.blank = none

/-- No built-in format has a marker of its own for blank lines. -/
theorem blank_of_mem_catalog : ∀ entry ∈ catalog, entry.2.blank = none := by
  decide +kernel

/-- The known formats with a leader are prefixed. -/
theorem prefixed_of_known? {extension : Text} (h : known? extension = some f)
    (hw : f.isWrapped = false) : f.Prefixed := by
  have hregular := regular_of_known? h
  obtain ⟨entry, hmem, rfl⟩ := mem_catalog_of_known? h
  refine ⟨hregular, fun hnil => ?_, ?_, blank_of_mem_catalog entry hmem⟩
  · rw [isWrapped, hnil] at hw
    cases hw
  · refine hregular.closing.resolve_right fun hwrapped => ?_
    rw [hw] at hwrapped
    cases hwrapped

namespace Prefixed

variable (h : f.Prefixed) {notice : Notice}
include h

private theorem isWrapped_eq_false : f.isWrapped = false :=
  List.isEmpty_eq_false_iff.2 h.leader_ne_nil

/-- A line is commented by the leader, with a space before what is not
empty. -/
theorem comment_eq (line : Text) :
    f.comment line = f.leader ++ if line = [] then [] else ' ' :: line := by
  have hw := h.isWrapped_eq_false
  by_cases hne : line = []
  · simp [comment, hne, blankMarker, h.blank_eq_none]
  · simp [comment, hne, hw]

/-- Different lines are commented differently. -/
theorem comment_injective : Function.Injective f.comment := by
  intro a b hab
  rw [h.comment_eq, h.comment_eq, List.append_cancel_left_eq] at hab
  by_cases ha : a = [] <;> by_cases hb : b = [] <;> simp_all

/-- The leader leads what is commented. -/
theorem leads_comment (line : Text) :
    leads f.leader (f.comment line) = true := by
  rw [h.comment_eq]
  exact leads_append h.leader_ne_nil _

theorem body_render : (notice.render f).body = notice.lines.map f.comment := by
  simp [Notice.render, h.closing_eq_nil]

private theorem comment_ne_nil (line : Text) : f.comment line ≠ [] := by
  rw [h.comment_eq]
  exact List.append_ne_nil_of_left_ne_nil h.leader_ne_nil _

/-- No line of a rendered notice is empty. -/
theorem ne_nil_of_mem_lines : ∀ line ∈ (notice.render f).lines, line ≠ [] := by
  intro line hl
  rcases List.mem_append.1 hl with hl | hl
  · simp only [Notice.render] at hl
    split at hl
    · rename_i hopening
      obtain rfl : line = f.opening := by simpa using hl
      simp at hopening
      exact hopening.2
    · cases hl
  · rw [h.body_render] at hl
    obtain ⟨written, -, rfl⟩ := List.mem_map.1 hl
    exact h.comment_ne_nil written

/-- One header begins with another one's lines exactly if its notice
does. -/
theorem lines_prefix_iff {other : Notice} :
    (other.render f).lines <+: (notice.render f).lines
      ↔ other.lines <+: notice.lines := by
  have hopening : (other.render f).opening = (notice.render f).opening := rfl
  rw [Header.lines, Header.lines, hopening, List.prefix_append_right_inj,
    h.body_render, h.body_render]
  constructor
  · intro hprefix
    obtain ⟨lines, hlines, heq⟩ := List.prefix_map_iff.1 hprefix
    rwa [List.map_injective_iff.2 h.comment_injective heq]
  · exact fun hprefix => hprefix.map f.comment

end Prefixed

end CopyrightNotice.CommentFormat
