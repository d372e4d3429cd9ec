/-
What an update leaves behind: whether the file it writes needs another
update.

# The lines above the block

An update keeps lines above the block it writes (`kept`). They are whole
lines of the new file, and a search that has read them has found no
header (`isComplete_of_mem_kept`, `missing_of_kept`); so what becomes of
the block depends on what that search holds. Waiting, it reads the block
as it was written. Otherwise the last line kept is the notice's first
line already, and the search takes it for the header's first line and the
block for the second and further ones.

# Repeated lines

Such a header is the expected one only if the lines of the notice go on
in the block as below its own first line (`accepts_of_held_iff`). That is
the one way in which a second update can find work left by the first
(`update_settles_iff`).
-/
import CopyrightNotice.Proofs.Comment.Regular
import CopyrightNotice.Proofs.Header.Acceptance
import CopyrightNotice.Proofs.Header.Content
import CopyrightNotice.Proofs.Header.Opening

namespace CopyrightNotice

open Text (content)

namespace Recognizer

variable {r : Recognizer}

-- ============================================================= legible

/-- A readable header that carries on a comment it stands under, each of
its lines fit to stand below a header. -/
structure Legible (r : Recognizer) : Prop extends r.Readable where
  continues : ∀ line, r.header.lines.head? = some line →
    r.format.isContinuation line = true
  terminates : ∀ line ∈ r.header.lines, r.format.isTerminator line = true

/-- Recognizable notices are readable in regular formats. -/
theorem legible_ofNotice {notice : Notice} {f : CommentFormat} (hf : f.Regular)
    (hnotice : notice.isRecognizable = true)
    (hlf : ∀ line ∈ notice.lines, '\n' ∉ line) :
    (ofNotice notice f).Legible := by
  have hwords : noticeOpener <+: notice.lines.head notice.ne_nil :=
    List.isPrefixOf_iff_prefix.1 hnotice
  have hne := CommentFormat.ne_nil_of_noticeOpener hwords
  have hbare := CommentFormat.isBare_of_mem_lines hf.unbroken hlf
  refine ⟨⟨hbare, hf.isOpener_opening, ?_⟩, hf.isContinuation_head hlf hne,
    fun line hl => hf.isTerminator_of_mem_lines line hl (hbare line hl)⟩
  show f.isOpener ((notice.render f).body.head _) = true
  rw [Notice.head_body_render]
  exact hf.isOpener_comment (Notice.isBare_head hlf) hwords

-- ============================================= under the notice's line

/-- A line that carries a comment on is part of the header that the held
lines began. -/
private theorem Steps.of_continuation {held : List Text} {line : Text}
    {t : Transition} (hcont : r.format.isContinuation line = true)
    (ht : r.Steps (.opener held) line t) :
    t.next.verdict ≠ .missing ∧ (Settled.of t.effects).before = [] := by
  cases ht with
  | second | unlike => simp [Search.verdict, mismatchAt]
  | unopened _ h =>
      rw [hcont] at h
      cases h

/-- Below a held first line, a line that carries a comment on and all lines
behind it are the header's or behind it, and so are the held ones. -/
theorem run_of_continuation {above held : List Text}
    (hs : (r.run .scanning above).2 = .opener held) {line : Text}
    (hcont : r.format.isContinuation line = true) (more : List Text) :
    (r.run .scanning (above ++ line :: more)).2.verdict ≠ .missing
    ∧ (Settled.of (r.run .scanning (above ++ line :: more)).1).header
        ++ (Settled.of (r.run .scanning (above ++ line :: more)).1).after
      = held ++ line :: more := by
  have hmissing : (r.run .scanning above).2.verdict
    = .missing := by rw [hs]; rfl
  obtain ⟨ls, hls, hlines⟩ := run_eq_of_missing hmissing
  obtain ⟨hstep, hbefore⟩ :=
    (r.steps_step (.opener held) line).of_continuation hcont
  obtain ⟨hfound, hrest⟩ := run_found hstep more
  -- the lines before the header are those settled above
  have hrun : r.run .scanning (above ++ line :: more)
      = (ls.map .before ++ ((r.step (.opener held) line).effects
          ++ (r.run (r.step (.opener held) line).next more).1),
        (r.run (r.step (.opener held) line).next more).2) := by
    rw [run_append, hs, hls, run_cons]
  have hverdict : (r.run .scanning (above ++ line :: more)).2.verdict
      ≠ .missing := by
    rw [hrun]
    exact hfound
  refine ⟨hverdict, ?_⟩
  have hfront : (Settled.of (r.run .scanning (above ++ line :: more)).1).before
      = ls := by
    rw [hrun]
    simp [hbefore, hrest]
  have hall := append_settled hverdict
  rw [hfront, List.append_assoc] at hall
  have hbehind :
    ls ++ ((Settled.of (r.run .scanning (above ++ line :: more)).1).header
    ++ (Settled.of (r.run .scanning (above ++ line :: more)).1).after)
      = ls ++ (held ++ line :: more) := by
    rw [hs] at hlines
    rw [hall, ← hlines]
    exact List.append_assoc ls held (line :: more)
  exact List.append_cancel_left hbehind

/-- The header's lines are the opening line, the first line of the body, and
the rest of it. -/
theorem lines_eq_first_append (r : Recognizer) :
    r.header.lines = r.header.opening.toList ++ r.header.body.take 1
      ++ r.header.body.tail := by
  rw [Header.lines, List.append_assoc, ← List.drop_one, List.take_append_drop]

/-- Held lines with the whole header under them are accepted exactly when
the header goes on with its own beginning. -/
theorem accepts_of_held_iff (hr : r.Legible) {held : List Text}
    (hheld : held.map content
      = r.header.opening.toList ++ r.header.body.take 1) (more : List Text) :
    r.Accepts (held.map content ++ (r.header.lines ++ more))
      ↔ r.header.body.tail <+: r.header.lines := by
  have hlt : r.header.body.tail.length < r.header.lines.length := by
    have := r.length_body_pos
    rw [Header.lines, List.length_append, List.length_tail]
    omega
  constructor
  · rintro ⟨last, rest, heq, -⟩
    have hbehind : (r.header.opening.toList ++ r.header.body.take 1)
        ++ (r.header.lines ++ more)
        = (r.header.opening.toList ++ r.header.body.take 1)
          ++ (r.header.body.tail ++ last :: rest) := by
      rw [← hheld, heq, ← List.append_assoc, hheld, ← r.lines_eq_first_append]
    have hprefix : r.header.body.tail <+: r.header.lines ++ more :=
      ⟨last :: rest, (List.append_cancel_left hbehind).symm⟩
    exact List.prefix_of_prefix_length_le hprefix
      (List.prefix_append _ _) hlt.le
  · rintro ⟨tail, htail⟩
    cases tail with
    | nil =>
        -- the body without its first line is shorter than the header
        rw [List.append_nil] at htail
        rw [htail] at hlt
        omega
    | cons last rest =>
        have hlast : last ∈ r.header.lines := by simp [← htail]
        refine ⟨last, rest ++ more, ?_, hr.terminates last hlast⟩
        calc held.map content ++ (r.header.lines ++ more)
            = r.header.opening.toList ++ r.header.body.take 1
                ++ ((r.header.body.tail ++ last :: rest) ++ more) := by
              rw [hheld, htail]
          _ = r.header.lines ++ last :: (rest ++ more) := by
              rw [r.lines_eq_first_append]
              simp

-- ============================================================ the block

/-- The block under a held first line is the header's, or behind it. -/
theorem run_of_held (hr : r.Legible) {above held : List Text}
    (hs : (r.run .scanning above).2 = .opener held) (behind : List Text) :
    (r.run .scanning (above ++ r.header.blockLines ++ behind)).2.verdict
        ≠ .missing
      ∧ (Settled.of (r.run .scanning
            (above ++ r.header.blockLines ++ behind)).1).header
          ++ (Settled.of
            (r.run .scanning (above ++ r.header.blockLines ++ behind)).1).after
        = held ++ (r.header.blockLines ++ behind) := by
  obtain ⟨first, rest, hsplit⟩ : ∃ first rest,
      r.header.lines = first :: rest :=
    List.exists_cons_of_ne_nil (by simp [Header.lines, r.header.body_ne_nil])
  have hcont : r.format.isContinuation (first ++ ['\n']) = true := by
    rw [CommentFormat.isContinuation_append_lf]
    exact hr.continues first (by rw [hsplit]; rfl)
  obtain ⟨more, hblock⟩ : ∃ more,
      r.header.blockLines ++ behind = (first ++ ['\n']) :: more := by
    rw [Header.blockLines, hsplit]
    exact ⟨_, rfl⟩
  rw [List.append_assoc, hblock]
  exact run_of_continuation hs hcont more

/-- The block under a held first line is read as the rest of a header. -/
theorem matched_of_held_iff (hr : r.Legible) {above held : List Text}
    (hs : (r.run .scanning above).2 = .opener held)
    (hheld : held.map content
      = r.header.opening.toList ++ r.header.body.take 1) (behind : List Text) :
    (r.run .scanning (above ++ r.header.blockLines ++ behind)).2 = .matched
      ↔ r.header.body.tail <+: r.header.lines := by
  obtain ⟨hfound, hbehind⟩ := run_of_held hr hs behind
  rw [matched_iff hfound, hbehind, List.map_append, List.map_append,
    Header.map_content_blockLines hr.bare, List.append_assoc]
  exact accepts_of_held_iff hr hheld _

/-- Whole lines without a header above the block: the block is the
expected header, unless the last of them is the notice's first line
already and the header does not go on with its own beginning. -/
theorem verdict_of_block (hr : r.Legible) {above : List Text}
    (hcomplete : ∀ line ∈ above, Text.IsComplete line)
    (hmissing : (r.run .scanning above).2.verdict = .missing) (behind : Text) :
    (r.regions (above.flatten ++ r.header.block ++ behind)).verdict = .current
      ↔ ∀ line, above.getLast? = some line →
        content line = r.header.body.head r.header.body_ne_nil →
        r.header.body.tail <+: r.header.lines := by
  have hclosed := Header.closedLines_block hr.bare hcomplete behind
  have hwaiting := waiting_iff_of_missing hr.toReadable hmissing
  show (r.run .scanning (Text.closedLines _)).2.verdict = _ ↔ _
  rw [hclosed, Search.verdict_eq_current]
  by_cases hwait : r.Waiting (r.run .scanning above).2
  · -- waiting, the search reads the block as it was written
    rw [Header.blockLines, run_around hr.toReadable hwait
      (Header.map_content_lines hr.bare) rfl]
    refine iff_of_true rfl fun line hlast hline => ?_
    exact absurd hline (hwaiting.1 hwait line hlast)
  · -- a held first line is the last line above the block
    obtain ⟨held, hs, hheld⟩ := held_of_not_waiting hmissing hwait
    obtain ⟨last, hlast, hline⟩ : ∃ line, above.getLast? = some line
        ∧ content line = r.header.body.head r.header.body_ne_nil := by
      by_contra hno
      exact hwait (hwaiting.2 fun line hlast hline => hno ⟨line, hlast, hline⟩)
    rw [matched_of_held_iff hr hs hheld]
    exact ⟨fun h _ _ _ => h, fun h => h last hlast hline⟩

-- ==================================================== the lines kept above

/-- The lines that an update keeps above the block. -/
def kept (r : Recognizer) (p : Regions) : List Text :=
  if p.verdict = .missing then
    (p.before.takeWhile r.format.isPreamble).map Text.terminated
  else p.before

variable {t t' : Text} {p : Regions}

/-- There is nothing to correct in a current header. -/
theorem correction?_eq_none_iff :
    r.correction? p = none ↔ p.verdict = .current := by
  cases hv : p.verdict <;> simp [correction?, hv]

/-- An update writes the lines kept, the block, and the rest. -/
private theorem eq_kept_append_of_correction? (h : r.correction? p = some t') :
    ∃ behind, t' = (r.kept p).flatten ++ r.header.block ++ behind := by
  unfold correction? at h
  split at h
  · cases h
  · rename_i hv
    rw [kept, if_neg (by rw [hv]; simp)]
    exact ⟨_, (Option.some.inj h).symm⟩
  · rename_i hv
    rw [kept, if_pos hv]
    exact ⟨_, (Option.some.inj h).symm⟩

/-- What is kept of a text consists of complete lines. -/
theorem isComplete_of_mem_kept (h : r.parse t = .ok p) :
    ∀ line ∈ r.kept p, Text.IsComplete line := by
  intro line hl
  by_cases hm : p.verdict = .missing
  · rw [kept, if_pos hm] at hl
    obtain ⟨written, hw, rfl⟩ := List.mem_map.1 hl
    have hmem := (List.takeWhile_prefix _).subset hw
    rw [before_of_missing h hm] at hmem
    exact Text.isComplete_terminated hmem
  · rw [kept, if_neg hm] at hl
    obtain ⟨front, first, more, hheader, -⟩ := opens_of_parse h hm
    have happend := append_regions r t
    rw [← eq_regions_of_parse h, List.append_assoc] at happend
    exact Text.isComplete_of_lines happend.symm (by simp [hheader]) line hl

/-- A run that has read the lines before a header has found none. -/
private theorem missing_of_before (h : r.parse t = .ok p)
    (hm : p.verdict ≠ .missing) :
    (r.run .scanning p.before).2.verdict = .missing := by
  by_contra hfound
  have hclosed : t.closedLines
      = p.before ++ (p.header ++ p.after ++ [[]]) := by
    rw [Text.closedLines, ← append_regions r t, ← eq_regions_of_parse h]
    simp only [List.append_assoc]
  obtain ⟨-, hrest⟩ := run_found (r := r) hfound (p.header ++ p.after ++ [[]])
  obtain ⟨hbefore, -⟩ := settled_of_parse h hm
  have harr := arranged_run (r := r) p.before
  have hcons := run_conserves (r := r) .scanning p.before
  rw [hclosed, run_append, Settled.of_append, hrest] at hbefore
  rw [Search.held_eq_nil hfound, harr.orderly] at hcons
  -- the lines before the header fill that run, which leaves no header in it
  have hlen := congrArg List.length hcons
  have hbefore := congrArg List.length hbefore
  have hpos := List.length_pos_iff.2 (harr.found hfound)
  simp [Search.held] at hlen hbefore
  omega

/-- A run that has read the lines kept above the block has found no
header. -/
theorem missing_of_kept (h : r.parse t = .ok p) :
    (r.run .scanning (r.kept p)).2.verdict = .missing := by
  by_cases hm : p.verdict = .missing
  · -- line feeds were added at most, and the verdict does not see them
    have hcontent : (r.kept p).map content
        = (p.before.takeWhile r.format.isPreamble).map content := by
      rw [kept, if_pos hm, List.map_map]
      exact List.map_congr_left fun line _ => Text.content_terminated line
    rw [r.verdict_of_map_content hcontent]
    have hlast := hm
    rw [verdict_of_parse h, Text.closedLines, ← before_of_missing h hm,
      ← List.takeWhile_append_dropWhile (p := r.format.isPreamble)
        (l := p.before), List.append_assoc, run_append] at hlast
    exact (run_missing hlast).1
  · rw [kept, if_neg hm]
    exact missing_of_before h hm

end Recognizer

-- =============================================================== result

/-- An update in a known format leaves nothing to update, with one
exception: the last line it keeps above the block is the comment of the
notice's first line already, and the lines of the header below that
comment are not those that the header begins with. -/
theorem update_settles_iff {extension : Text} {f : CommentFormat}
    (hf : CommentFormat.known? extension = some f) {notice : Notice}
    (hnotice : notice.isRecognizable = true)
    (hlf : ∀ line ∈ notice.lines, '\n' ∉ line) {t t' : Text} {p : Regions}
    (hp : (Recognizer.ofNotice notice f).parse t = .ok p)
    (ht' : (Recognizer.ofNotice notice f).correction? p = some t') :
    (∃ q, (Recognizer.ofNotice notice f).parse t' = .ok q
        ∧ q.verdict = .current
        ∧ (Recognizer.ofNotice notice f).correction? q = none)
      ↔ ∀ line, ((Recognizer.ofNotice notice f).kept p).getLast? = some line →
        content line = f.comment (notice.lines.head notice.ne_nil) →
        (notice.render f).body.tail <+: (notice.render f).lines := by
  have hlegible :=
    Recognizer.legible_ofNotice (CommentFormat.regular_of_known? hf)
      hnotice hlf
  obtain ⟨behind, rfl⟩ := Recognizer.eq_kept_append_of_correction? ht'
  -- whether the new text is current is a question about the block below what
  -- is kept
  have hverdict := Recognizer.verdict_of_block hlegible
    (Recognizer.isComplete_of_mem_kept hp) (Recognizer.missing_of_kept hp)
    behind
  have hhead : (Recognizer.ofNotice notice f).header.body.head
      (Recognizer.ofNotice notice f).header.body_ne_nil
      = f.comment (notice.lines.head notice.ne_nil) := Notice.head_body_render
  rw [hhead] at hverdict
  refine Iff.trans ?_ hverdict
  constructor
  · rintro ⟨q, hq, hcurrent, -⟩
    rwa [Recognizer.eq_regions_of_parse hq] at hcurrent
  · intro hcurrent
    exact ⟨_, Recognizer.parse_eq _ _, hcurrent,
      Recognizer.correction?_eq_none_iff.2 hcurrent⟩

/-- The header goes below a shell script's first line, and stays there. -/
theorem update_settles_for_script : ∃ q, (Recognizer.ofNotice
          ⟨["Copyright (c) A".toList, "B".toList], by simp, by decide,
            by decide⟩
          ((CommentFormat.banner '#' "#").keeping "#!")).parse
          ("#!/bin/sh\n".toList
            ++ (List.replicate 80 '#' ++ "\n# Copyright (c) A\n# B\n\n".toList)
            ++ "exit 0".toList)
        = .ok q
      ∧ q.verdict = .current
      ∧ (Recognizer.ofNotice
          ⟨["Copyright (c) A".toList, "B".toList], by simp, by decide,
            by decide⟩
          ((CommentFormat.banner '#' "#").keeping "#!")).correction? q
        = none :=
  (update_settles_iff
    (show CommentFormat.known? "sh".toList = some _ by decide +kernel)
    (by decide) (by decide) (Recognizer.parse_eq _ "#!/bin/sh\nexit 0".toList)
    (by decide +kernel)).2 (by decide +kernel)

/-- Not every update settles. A comment with the first words of a longer
notice on top of a page counts among the lines that stay there, and with
the block below it, it is taken for the beginning of a header. -/
theorem not_forall_update_settles :
    ¬ ∀ (extension : Text) (f : CommentFormat),
      CommentFormat.known? extension = some f →
      ∀ notice : Notice, notice.isRecognizable = true →
        (∀ line ∈ notice.lines, '\n' ∉ line) →
        ∀ (t t' : Text) (p : Regions),
          (Recognizer.ofNotice notice f).parse t = .ok p →
          (Recognizer.ofNotice notice f).correction? p = some t' →
          ∃ q, (Recognizer.ofNotice notice f).parse t' = .ok q
            ∧ q.verdict = .current := by
  intro h
  obtain ⟨q, hq, hcurrent⟩ := h "html".toList
    ((CommentFormat.wrapped "<!--" "-->").keeping "<!") (by decide +kernel)
    ⟨["Copyright (c) 2024 Example".toList, "All rights reserved.".toList],
      by simp, by decide, by decide⟩
    (by decide) (by decide)
    "<!-- Copyright (c) 2024 Example -->\n<p>Hello</p>\n".toList
    ("<!-- Copyright (c) 2024 Example -->\n".toList
      ++ "<!-- Copyright (c) 2024 Example -->\n".toList
      ++ "<!-- All rights reserved. -->\n\n<p>Hello</p>\n".toList)
    _ (Recognizer.parse_eq _ _) (by decide +kernel)
  rw [Recognizer.eq_regions_of_parse hq] at hcurrent
  exact absurd hcurrent (by decide +kernel)

end CopyrightNotice
