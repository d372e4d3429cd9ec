/-
Which notices one file can satisfy.

# The opener of a current header

A current header stands where a header begins first, and the lines from
its opener on are those of the expected body (`beginsFirst_of_current`).
Nothing else is needed of a run.

# Two notices

Searches for two notices agree on what an opener is and differ on which of
them are false starts. If both find their headers at one opener, its lines
begin with both bodies. If one of them has passed the other's opener by,
that opener is the first line of both notices with no comment below it; so
the notice found there has no second line (`prefix_of_falseStart`).
-/
import CopyrightNotice.Proofs.Comment.Regular
import CopyrightNotice.Proofs.Header.Acceptance
import CopyrightNotice.Proofs.Header.Detection

namespace CopyrightNotice

open Text (content)

namespace Recognizer

variable {r : Recognizer}

-- ============================================ the opener of a header

/-- Above an opener from which on the lines are expected, with what may
open the header, stands the expected opening line. -/
private theorem map_content_above
    (hopening : ∀ o, r.header.opening = some o → r.format.isOpener o = false)
    {front : List Text} {line : Text} {behind more : List Text}
    (hopen : r.format.isOpener line = true)
    (hlines : (r.above front ++ line :: behind).map content
      = r.header.lines ++ more) :
    (r.above front).map content = r.header.opening.toList := by
  cases ho : r.header.opening with
  | none =>
      have hmark := isMarker_of_opening_none ho
      simp [above, hmark]
  | some opening =>
      rw [Header.lines, ho] at hlines
      rcases r.held_above front with hnil | ⟨marker, hmarker, -⟩
      · -- the opener itself would be the opening line
        rw [hnil] at hlines
        have hline : content line = opening := (List.cons.inj hlines).1
        have hplain := hopening opening ho
        rw [← hline, CommentFormat.isOpener_content, hopen] at hplain
        cases hplain
      · rw [hmarker] at hlines ⊢
        have hcontent : content marker = opening := (List.cons.inj hlines).1
        rw [List.map_singleton, hcontent]
        rfl

/-- A current header is the first that begins in the file, and from its
opener on stand the lines of the expected body. -/
theorem beginsFirst_of_current
    (hopening : ∀ o, r.header.opening = some o → r.format.isOpener o = false)
    {t : Text} {p : Regions} (h : r.parse t = .ok p)
    (hc : p.verdict = .current) :
    ∃ front line behind, t.closedLines = front ++ line :: behind
      ∧ r.BeginsFirst front line behind
      ∧ r.header.body <+: (line :: behind).map content := by
  rw [verdict_of_parse h] at hc
  have hm : (r.run .scanning t.closedLines).2.verdict
    ≠ .missing := by simp [hc]
  obtain ⟨front, line, behind, hsplit, hfirst⟩ :=
    beginsFirst_of_found hopening hm
  refine ⟨front, line, behind, hsplit, hfirst, ?_⟩
  rw [hsplit] at hc hm
  obtain ⟨-, -, hfound⟩ := settled_of_beginsFirst hopening hfirst
  obtain ⟨last, more, haccepted, -⟩ :=
    (matched_iff hm).1 ((Search.verdict_eq_current _).1 hc)
  rw [hfound] at haccepted
  have habove := map_content_above hopening hfirst.opener haccepted
  rw [List.map_append, habove, Header.lines, List.append_assoc,
    List.append_cancel_left_eq] at haccepted
  exact ⟨last :: more, haccepted.symm⟩

-- ========================================================= two notices

variable {f : CommentFormat} {one other : Notice}

/-- A notice that stands at a false start of another one is that notice's
first line. -/
private theorem prefix_of_falseStart (hf : f.Prefixed) {above : Option Text}
    {line : Text} {behind : List Text}
    (hbody : (ofNotice one f).header.body <+: (line :: behind).map content)
    (hstart : (ofNotice other f).FalseStart above line behind.head?) :
    one.lines <+: other.lines := by
  have hrender : (ofNotice one f).header.body = one.lines.map f.comment :=
    hf.body_render
  rw [hrender] at hbody
  have hother : content line = f.comment (other.lines.head other.ne_nil) :=
    hstart.first.trans Notice.head_body_render
  cases hone : one.lines with
  | nil => exact absurd hone one.ne_nil
  | cons first more =>
      rw [hone, List.map_cons, List.map_cons, List.cons_prefix_cons] at hbody
      obtain ⟨hline, hmore⟩ := hbody
      have hfirst : first = other.lines.head other.ne_nil :=
        hf.comment_injective (hline.trans hother)
      cases more with
      | nil =>
          refine ⟨other.lines.tail, ?_⟩
          rw [hfirst, List.singleton_append, List.cons_head_tail]
      | cons second more =>
          -- the second line of the notice would carry the comment on
          obtain ⟨next, below, hbelow⟩ : ∃ next below,
              behind = next :: below := by
            refine List.exists_cons_of_ne_nil fun hnil => ?_
            rw [hnil, List.map_nil, List.prefix_nil] at hmore
            cases hmore
          rw [hbelow, List.map_cons, List.map_cons,
            List.cons_prefix_cons] at hmore
          have hplain : f.isContinuation next = false :=
            hstart.plain next (by rw [hbelow]; rfl)
          have hcont : f.isContinuation next = true := by
            rw [CommentFormat.isContinuation, ← hmore.1]
            simp [hf.leads_comment second]
          rw [hplain] at hcont
          cases hcont

/-- Of two notices found in a file, the one found no further down and the
other begin alike. -/
theorem prefix_of_beginsFirst (hf : f.Prefixed) {front extra : List Text}
    {line line' : Text} {behind behind' : List Text}
    (hbody : (ofNotice one f).header.body <+: (line :: behind).map content)
    (hfirst : (ofNotice one f).BeginsFirst front line behind)
    (hbody' : (ofNotice other f).header.body
      <+: (line' :: behind').map content)
    (hfirst' : (ofNotice other f).BeginsFirst (front ++ extra) line' behind')
    (hsplit : line :: behind = extra ++ line' :: behind') :
    one.lines <+: other.lines ∨ other.lines <+: one.lines := by
  cases extra with
  | nil =>
      -- both at one opener
      rw [List.nil_append] at hsplit
      rw [hsplit] at hbody
      rcases List.prefix_or_prefix_of_prefix hbody hbody' with hle | hle
      · left
        exact hf.lines_prefix_iff.1 ((List.prefix_append_right_inj _).2 hle)
      · right
        exact hf.lines_prefix_iff.1 ((List.prefix_append_right_inj _).2 hle)
  | cons passed extra =>
      left
      obtain ⟨rfl, rfl⟩ := List.cons.inj hsplit
      have hstart := hfirst'.quiet front line extra rfl hfirst.opener
      have hbelow : extra.head?.or (some line')
          = (extra ++ line' :: behind').head? := by
        cases extra <;> rfl
      rw [hbelow] at hstart
      exact prefix_of_falseStart hf hbody hstart

end Recognizer

-- =============================================================== result

/-- In a known format with a leader, a file that is current for two notices
shows that one of them begins with all lines of the other. -/
theorem prefix_of_current_for_both {extension : Text} {f : CommentFormat}
    (hf : CommentFormat.known? extension = some f) (hw : f.isWrapped = false)
    {one other : Notice} {t : Text} {p q : Regions}
    (hp : (Recognizer.ofNotice one f).parse t = .ok p)
    (hpc : p.verdict = .current)
    (hq : (Recognizer.ofNotice other f).parse t = .ok q)
    (hqc : q.verdict = .current) :
    one.lines <+: other.lines ∨ other.lines <+: one.lines := by
  have hprefixed := CommentFormat.prefixed_of_known? hf hw
  obtain ⟨front, line, behind, hsplit, hfirst, hbody⟩ :=
    Recognizer.beginsFirst_of_current hprefixed.isOpener_opening hp hpc
  obtain ⟨front', line', behind', hsplit', hfirst', hbody'⟩ :=
    Recognizer.beginsFirst_of_current hprefixed.isOpener_opening hq hqc
  rcases List.append_eq_append_iff.1 (hsplit.symm.trans hsplit') with
    ⟨extra, rfl, hlines⟩ | ⟨extra, rfl, hlines⟩
  · exact Recognizer.prefix_of_beginsFirst hprefixed hbody hfirst hbody'
      hfirst' hlines
  · exact (Recognizer.prefix_of_beginsFirst hprefixed hbody' hfirst' hbody
        hfirst hlines).symm

/-- A file with a notice's first line on top, and the whole notice further
down, is current for both. -/
theorem prefix_of_current_for_both_in_program :
    Regions.verdict ((Recognizer.ofNotice
        ⟨["Copyright (c) A".toList], by simp, by decide, by decide⟩
        (CommentFormat.led "//")).regions
      "// Copyright (c) A\n\n// Copyright (c) A\n// B\n\nuse std;\n".toList)
        = .current
      ∧ Regions.verdict ((Recognizer.ofNotice
        ⟨["Copyright (c) A".toList, "B".toList], by simp, by decide, by decide⟩
        (CommentFormat.led "//")).regions
      "// Copyright (c) A\n\n// Copyright (c) A\n// B\n\nuse std;\n".toList)
        = .current
      ∧ (["Copyright (c) A".toList] <+: ["Copyright (c) A".toList, "B".toList]
        ∨ ["Copyright (c) A".toList, "B".toList]
          <+: ["Copyright (c) A".toList]) := by
  have hone : Regions.verdict ((Recognizer.ofNotice
      ⟨["Copyright (c) A".toList], by simp, by decide, by decide⟩
      (CommentFormat.led "//")).regions
      "// Copyright (c) A\n\n// Copyright (c) A\n// B\n\nuse std;\n".toList)
      = .current := by decide +kernel
  have hother : Regions.verdict ((Recognizer.ofNotice
      ⟨["Copyright (c) A".toList, "B".toList], by simp, by decide, by decide⟩
      (CommentFormat.led "//")).regions
      "// Copyright (c) A\n\n// Copyright (c) A\n// B\n\nuse std;\n".toList)
      = .current := by decide +kernel
  refine ⟨hone, hother, ?_⟩
  exact prefix_of_current_for_both
    (show CommentFormat.known? "rs".toList = some _ by decide +kernel)
    (by decide)
    (Recognizer.parse_eq _ _) hone (Recognizer.parse_eq _ _) hother

end CopyrightNotice
