/-
What becomes of a header when the notice changes.

# A header in a text

`Carries` is the shape of a text with a header in it, whichever notice it
was written for: lines without an opener, an opening line where the format
has one, an opener with more lines below it, a blank line and the rest. A
search finds such a header where it stands unless its opener is a false
start (`Carries.settled`). What an update writes is then a matter of the
lines that the search leaves behind the header (`correction?_of_stale`).

# Formats with a leader

All lines of a prefixed header carry the comment on and none ends it but
the blank line below. So wherever the search goes wrong on the way, it
goes on to that line and not beyond, and the old block gives way as a
whole (`correction_replaces_block`).
-/
import CopyrightNotice.Proofs.Comment.Regular
import CopyrightNotice.Proofs.Header.Detection
import CopyrightNotice.Proofs.Header.Extent
import CopyrightNotice.Proofs.Header.Update

namespace CopyrightNotice

open Text (content)

-- ==================================================== a header in a text

namespace Recognizer

variable {r : Recognizer}

/-- A text with a header of the format in it: lines without an opener, the
opening line if there is to be one, an opener with more lines below it, a
blank line, and the rest. -/
structure Carries (r : Recognizer) (t : Text) (front top : List Text)
    (first : Text) (more : List Text) (rest : Text) : Prop where
  lines : Text.lines t = front ++ top ++ first :: (more ++ ['\n']
    :: Text.lines rest)
  quiet : ∀ line ∈ front, r.format.isOpener line = false
  opening : top.map content = r.header.opening.toList
  plain : ∀ o, r.header.opening = some o → r.format.isOpener o = false
  opener : r.format.isOpener first = true

namespace Carries

variable {t : Text} {front top : List Text} {first : Text} {more : List Text}
  {rest : Text}

theorem closedLines (h : r.Carries t front top first more rest) :
    t.closedLines
      = front ++ top
        ++ first :: (more ++ ['\n'] :: (Text.lines rest ++ [[]])) := by
  rw [Text.closedLines, h.lines]
  simp only [List.append_assoc, List.cons_append]

theorem isOpener_eq_false (h : r.Carries t front top first more rest) :
    ∀ line ∈ front ++ top, r.format.isOpener line = false := by
  intro line hl
  rcases List.mem_append.1 hl with hl | hl
  · exact h.quiet line hl
  · have hmem : content line ∈ r.header.opening.toList := by
      rw [← h.opening]
      exact List.mem_map_of_mem hl
    rw [← CommentFormat.isOpener_content]
    exact h.plain _ (Option.mem_toList.1 hmem)

/-- The opening line above the opener is the expected one, if any. -/
private theorem above_eq (h : r.Carries t front top first more rest) :
    r.above (front ++ top) = top := by
  have hopening := h.opening
  cases ho : r.header.opening with
  | none =>
      have hmark := isMarker_of_opening_none ho
      rw [ho] at hopening
      obtain rfl := List.map_eq_nil_iff.1 hopening
      simp [above, hmark]
  | some opening =>
      rw [ho] at hopening
      obtain ⟨line, rfl, hline⟩ := List.map_eq_singleton_iff.1 hopening
      rw [above_concat, if_pos (isMarker_of_content_eq ho hline)]

/-- Unless its opener is a false start, the header is found where it
stands. -/
theorem settled (h : r.Carries t front top first more rest)
    (hbegins : ¬ r.FalseStart (front ++ top).getLast? first
      (more ++ [['\n']]).head?) :
    (r.run .scanning t.closedLines).2.verdict ≠ .missing
      ∧ (Settled.of (r.run .scanning t.closedLines).1).before = front
      ∧ (Settled.of (r.run .scanning t.closedLines).1).header
          ++ (Settled.of (r.run .scanning t.closedLines).1).after
        = top ++ first :: (more ++ ['\n'] :: (Text.lines rest ++ [[]])) := by
  have hbelow : (more ++ ['\n'] :: (Text.lines rest ++ [[]])).head?
      = (more ++ [['\n']]).head? := by
    cases more <;> rfl
  obtain ⟨hfound, hbefore, hbehind⟩ := settled_of_beginsFirst h.plain
    ⟨quiet_of_no_opener h.isOpener_eq_false (some first),
    h.opener, by rwa [hbelow]⟩
  rw [← h.closedLines, h.above_eq] at hbefore hbehind
  rw [← h.closedLines] at hfound
  exact ⟨hfound, List.append_cancel_right hbefore, hbehind⟩

end Carries

/-- An update of a stale header writes the block between the lines settled
before and behind it. -/
theorem correction?_of_stale {t : Text} {p : Regions} (h : r.parse t = .ok p)
    (hv : p.verdict = .stale) :
    r.correction? p
      = some ((Settled.of (r.run .scanning t.closedLines).1).before.flatten
        ++ r.header.block
        ++ (Settled.of (r.run .scanning t.closedLines).1).after.flatten) := by
  rw [correction?, hv]
  obtain ⟨hbefore, ⟨-, hafter⟩ | ⟨-, hafter, hnil⟩⟩ :=
    settled_of_parse h (by simp [hv])
  · simp [hbefore, hafter]
  · simp [hbefore, hafter, hnil]

/-- A header that differs and has inner lines only from where the search
for its end resumes, down to a line that ends it, reaches that line. -/
theorem after_of_inner {lines head tail : List Text} {last : Text}
    (hm : (r.run .scanning lines).2.verdict ≠ .missing)
    (hfound : (Settled.of (r.run .scanning lines).1).header
        ++ (Settled.of (r.run .scanning lines).1).after
      = head ++ last :: tail) (hlast : r.format.isEnd last = true)
    {place : Nat}
    (hdiffers : DiffersAt ((head ++ last :: tail).map content)
      r.header.lines place)
    (hle : resume (r.openerPlace (head ++ last :: tail)) place ≤ head.length)
    (hinner :
      ∀ line ∈ head.drop (resume (r.openerPlace (head ++ last :: tail)) place),
        r.format.isInner line = true) :
    (Settled.of (r.run .scanning lines).1).after = tail := by
  generalize hk : resume (r.openerPlace (head ++ last :: tail)) place
    = k at hle hinner
  have hsplit : head ++ last :: tail
      = head.take k ++ (head.drop k ++ last :: tail) := by
    rw [← List.append_assoc, List.take_append_drop]
  have hlen : (head.take k).length = k := by
    rw [List.length_take]
    omega
  rw [hsplit] at hfound hdiffers hk
  rw [after_of_differsAt hm hfound hdiffers (hlen.trans hk.symm),
    CommentFormat.reach_of_inner hinner, CommentFormat.reach_of_isEnd hlast,
    List.drop_length_add_append]
  rfl

/-- A list without an entry begins another one no further than up to that
entry. -/
theorem prefix_append_cons_iff {α : Type} {front behind l : List α} {a : α}
    (h : a ∉ l) : l <+: front ++ a :: behind ↔ l <+: front := by
  constructor
  · intro hl
    rcases List.prefix_or_prefix_of_prefix hl
      (List.prefix_append _ _) with hfront | hfront
    · exact hfront
    · -- what is left of the list would begin with the entry
      obtain ⟨more, rfl⟩ := hfront
      rw [List.prefix_append_right_inj, List.prefix_cons_iff] at hl
      rcases hl with rfl | ⟨t, rfl, -⟩
      · simp
      · simp at h
  · exact fun hl => hl.trans (List.prefix_append _ _)

/-- Lines that do not begin with the expected ones, none of which is empty,
differ from them at the blank line below, if not before. -/
private theorem exists_differsAt_of_not_prefix {found expected : List Text}
    (hnil : [] ∉ expected) (hnot : ¬ expected <+: found) (more : List Text) :
    ∃ place ≤ found.length, DiffersAt (found ++ [] :: more)
      expected place := by
  rcases prefix_or_differsAt (found ++ [[]]) expected with
    hfound | hexpected | ⟨place, hdiffers⟩
  · exact absurd (hfound.subset (by simp)) hnil
  · exact absurd ((prefix_append_cons_iff hnil).1 hexpected) hnot
  · have hlt := hdiffers.lt_length.1
    rw [List.length_append, List.length_singleton] at hlt
    refine ⟨place, Nat.le_of_lt_succ hlt, ?_⟩
    simpa using hdiffers.append more

/-- Inner lines that are not the expected ones are the header's together
with the blank line below them. -/
theorem after_of_blank (hnil : [] ∉ r.header.lines)
    {lines head body behind : List Text}
    (hm : (r.run .scanning lines).2.verdict ≠ .missing)
    (hbehind : (Settled.of (r.run .scanning lines).1).header
        ++ (Settled.of (r.run .scanning lines).1).after
      = head ++ ['\n'] :: behind)
    (hhead : head.map content = r.header.opening.toList ++ body)
    (htwo : 2 ≤ body.length) (hnot : ¬ r.header.lines <+: head.map content)
    (hinner : ∀ line ∈ head, r.format.isInner line = true) :
    (Settled.of (r.run .scanning lines).1).after = behind := by
  have hcontent : (head ++ ['\n'] :: behind).map content
      = head.map content ++ [] :: behind.map content := by
    rw [List.map_append]
    rfl
  have hplace : r.openerPlace (head ++ ['\n'] :: behind)
      = r.header.opening.toList.length := by
    refine @openerPlace_of_map_content r _ (body ++ [] :: behind.map content)
      ?_
    rw [hcontent, hhead, List.append_assoc]
  have hlen : r.header.opening.toList.length + 2 ≤ head.length := by
    have hlen := congrArg List.length hhead
    rw [List.length_map, List.length_append] at hlen
    omega
  obtain ⟨place, hle, hdiffers⟩ :=
    exists_differsAt_of_not_prefix hnil hnot (behind.map content)
  rw [List.length_map] at hle
  rw [← hcontent] at hdiffers
  refine after_of_inner hm hbehind rfl hdiffers ?_ fun line hl =>
    hinner line (List.mem_of_mem_drop hl)
  rw [hplace]
  exact resume_le hlen hle

end Recognizer

-- ================================================== the block of a notice

/-- A block below lines without an opener is carried by the text. Below the
first line of its body there may be lines that are not bare. -/
theorem Recognizer.carries_block {f : CommentFormat} {old new : Notice}
    (hopening : ∀ o, (old.render f).opening = some o →
      o.IsBare ∧ f.isOpener o = false)
    (hfirst : (f.comment (old.lines.head old.ne_nil)).IsBare)
    (hopener : f.isOpener (f.comment (old.lines.head old.ne_nil)) = true)
    {pre : Text} (hpre : pre = [] ∨ pre.getLast? = some '\n')
    (hquiet : ∀ line ∈ Text.lines pre, f.isOpener line = false) (rest : Text) :
    (ofNotice new f).Carries (pre ++ (old.render f).block ++ rest)
      (Text.lines pre) ((old.render f).opening.toList.map (· ++ ['\n']))
      (f.comment (old.lines.head old.ne_nil) ++ ['\n'])
      (Text.lines ((old.render f).body.tail.map (· ++ ['\n'])).flatten)
      rest := by
  have hbare : ∀ line ∈ (old.render f).opening.toList, line.IsBare :=
    fun line hl => (hopening line (Option.mem_toList.1 hl)).1
  have hblock : (old.render f).block ++ rest
      = ((old.render f).opening.toList.map (· ++ ['\n'])).flatten
        ++ ((f.comment (old.lines.head old.ne_nil) ++ ['\n'])
          ++ (((old.render f).body.tail.map (· ++ ['\n'])).flatten ++ '\n'
          :: rest)) := by
    rw [Header.block, Header.lines, Notice.body_render_eq_cons]
    simp
  refine ⟨?_, hquiet, ?_, fun o ho => (hopening o ho).2, ?_⟩
  · rw [List.append_assoc, Text.lines_append hpre, hblock,
      Text.lines_flatten_append (Text.isComplete_of_mem_map hbare),
      Text.lines_append_of_isComplete (Text.isComplete_of_isBare hfirst),
      Text.lines_append (Text.ends_flatten _), ← List.append_assoc]
    rfl
  · exact Text.map_content_of_isBare hbare
  · exact (CommentFormat.isOpener_append_lf f _).trans hopener

-- ================================================ formats with a leader

namespace CommentFormat.Prefixed

variable {f : CommentFormat} (h : f.Prefixed) {notice : Notice}
include h

/-- A line of a header does not end it and carries it on. -/
theorem isInner_of_mem_lines :
    ∀ line ∈ (notice.render f).lines, line.IsBare → f.isInner line = true := by
  intro line hl hbare
  have hne := h.ne_nil_of_mem_lines line hl
  have hleads : leads f.leader line = true ∨ leads f.opening line = true := by
    rcases List.mem_append.1 hl with hl | hl
    · right
      simp only [Notice.render] at hl
      split at hl
      · rename_i hopening
        obtain rfl : line = f.opening := by simpa using hl
        simpa using leads_append hne []
      · cases hl
    · left
      rw [h.body_render] at hl
      obtain ⟨written, -, rfl⟩ := List.mem_map.1 hl
      exact h.leads_comment written
  rw [isInner, isContinuation_of_leads hbare hleads]
  simp [isEnd, hbare.2, hne, closes, h.closing_eq_nil]

end CommentFormat.Prefixed

namespace Recognizer

variable {f : CommentFormat} {old new : Notice}

/-- Above a blank line, a header is accepted for the notices that its own
one begins with. -/
private theorem accepts_iff_prefix (hf : f.Prefixed) (more : List Text) :
    (ofNotice new f).Accepts ((old.render f).lines ++ [] :: more)
      ↔ new.lines <+: old.lines := by
  have hnil : [] ∉ (new.render f).lines :=
    fun hl => hf.ne_nil_of_mem_lines [] hl rfl
  rw [← hf.lines_prefix_iff,
    ← @prefix_append_cons_iff _ (old.render f).lines more _ _ hnil]
  constructor
  · rintro ⟨last, rest, heq, -⟩
    exact ⟨last :: rest, heq.symm⟩
  · intro hprefix
    obtain ⟨tail, htail⟩ := (prefix_append_cons_iff hnil).1 hprefix
    obtain ⟨last, rest, hsplit⟩ : ∃ last rest,
        tail ++ [] :: more = last :: rest :=
      List.exists_cons_of_ne_nil (by simp)
    refine ⟨last, rest, ?_, ?_⟩
    · rw [← htail, List.append_assoc, hsplit]
      rfl
    · -- without a closing marker every line may stand below a header
      rw [CommentFormat.isTerminator_iff]
      right
      left
      show f.closing <:+ content last
      rw [hf.closing_eq_nil]
      exact List.nil_suffix

/-- Where a header of two lines or more stands, the search finds it. -/
private theorem settled_of_prefixed (hf : f.Prefixed)
    (hold : old.isRecognizable = true) (hlf : ∀ line ∈ old.lines, '\n' ∉ line)
    (htwo : 2 ≤ old.lines.length) {pre : Text}
    (hpre : pre = [] ∨ pre.getLast? = some '\n')
    (hquiet : ∀ line ∈ Text.lines pre, f.isOpener line = false) {rest t : Text}
    (ht : t = pre ++ (old.render f).block ++ rest) :
    ((ofNotice new f).run .scanning t.closedLines).2.verdict ≠ .missing
      ∧ (Settled.of ((ofNotice new f).run .scanning t.closedLines).1).before
        = Text.lines pre
      ∧ (Settled.of ((ofNotice new f).run .scanning t.closedLines).1).header
          ++ (Settled.of
            ((ofNotice new f).run .scanning t.closedLines).1).after
        = (old.render f).lines.map (· ++ ['\n'])
          ++ ['\n'] :: (Text.lines rest ++ [[]]) := by
  have hlegible := legible_ofNotice hf.toRegular hold hlf
  have hbare : ∀ line ∈ (old.render f).lines, line.IsBare := hlegible.bare
  have hopener := hlegible.first
  have hlines : (old.render f).lines = (old.render f).opening.toList
      ++ f.comment (old.lines.head old.ne_nil)
      :: (old.render f).body.tail := by
    rw [Header.lines, ← Notice.body_render_eq_cons]
  have hmore : Text.lines ((old.render f).body.tail.map (· ++ ['\n'])).flatten
      = (old.render f).body.tail.map (· ++ ['\n']) :=
    Text.lines_flatten_of_isBare fun line hl =>
      hbare line (by simp [hlines, hl])
  have hcarries := @carries_block f old new
    (fun o ho => ⟨hbare o (by simp [hlines, ho]), hf.isOpener_opening o ho⟩)
    (hbare _ (by simp [hlines]))
    (by rw [← Notice.head_body_render]; exact hopener) pre hpre hquiet rest
  rw [hmore, ← ht] at hcarries
  have hsecond : ∃ second others, (old.render f).body.tail
      = second :: others := by
    refine List.exists_cons_of_length_pos ?_
    rw [List.length_tail, hf.body_render, List.length_map]
    omega
  obtain ⟨second, others, htail⟩ := hsecond
  -- the line below the first is a comment, so the header is no false start
  have hcont : f.isContinuation (second ++ ['\n']) = true := by
    have hmem : second ∈ (old.render f).lines := by simp [hlines, htail]
    have hinner := hf.isInner_of_mem_lines second hmem (hbare second hmem)
    rw [CommentFormat.isInner, Bool.and_eq_true] at hinner
    rw [CommentFormat.isContinuation_append_lf]
    exact hinner.2
  have hbegins : ¬ (ofNotice new f).FalseStart
      (Text.lines pre
        ++ (old.render f).opening.toList.map (· ++ ['\n'])).getLast?
      (f.comment (old.lines.head old.ne_nil) ++ ['\n'])
      ((old.render f).body.tail.map (· ++ ['\n']) ++ [['\n']]).head? := by
    intro hstart
    have hplain := hstart.plain (second ++ ['\n']) (by rw [htail]; rfl)
    rw [show (ofNotice new f).format = f from rfl, hcont] at hplain
    cases hplain
  obtain ⟨hfound, hbefore, hbehind⟩ := hcarries.settled hbegins
  refine ⟨hfound, hbefore, hbehind.trans ?_⟩
  rw [hlines]
  simp

/-- A header that another notice does not begin with ends at the blank line
below it, in a search for that notice. -/
private theorem after_of_prefixed (hf : f.Prefixed)
    (hbare : ∀ line ∈ (old.render f).lines, line.IsBare)
    (htwo : 2 ≤ old.lines.length) (hnew : ¬ new.lines <+: old.lines)
    {lines behind : List Text}
    (hfound : ((ofNotice new f).run .scanning lines).2.verdict ≠ .missing)
    (hbehind : (Settled.of ((ofNotice new f).run .scanning lines).1).header
        ++ (Settled.of ((ofNotice new f).run .scanning lines).1).after
      = (old.render f).lines.map (· ++ ['\n']) ++ ['\n'] :: behind) :
    (Settled.of ((ofNotice new f).run .scanning lines).1).after = behind := by
  have hcontent : ((old.render f).lines.map (· ++ ['\n'])).map content
      = (ofNotice new f).header.opening.toList ++ (old.render f).body :=
    Header.map_content_lines hbare
  refine after_of_blank (fun hl => hf.ne_nil_of_mem_lines [] hl rfl)
    hfound hbehind hcontent ?_ ?_ ?_
  · rw [hf.body_render, List.length_map]
    exact htwo
  · rw [hcontent]
    exact fun hprefix => hnew (hf.lines_prefix_iff.1 hprefix)
  · intro line hl
    obtain ⟨written, hw, rfl⟩ := List.mem_map.1 hl
    refine (CommentFormat.isInner_append_lf written).trans ?_
    exact hf.isInner_of_mem_lines written hw (hbare written hw)

end Recognizer

-- ================================================================ result

/-- Where a notice of two lines or more stands in a prefixed format, below
lines without an opener, an update to another notice leaves the text alone
if the old notice begins with the new one, and otherwise puts the new block
in the place of the old one. -/
theorem correction_replaces_block {extension : Text} {f : CommentFormat}
    (hf : CommentFormat.known? extension = some f) (hw : f.isWrapped = false)
    {old new : Notice} (hold : old.isRecognizable = true)
    (hlf : ∀ line ∈ old.lines, '\n' ∉ line) (htwo : 2 ≤ old.lines.length)
    {pre : Text} (hpre : pre = [] ∨ pre.getLast? = some '\n')
    (hquiet : ∀ line ∈ Text.lines pre, f.isOpener line = false) (rest : Text) :
    ∃ p, (Recognizer.ofNotice new f).parse
          (pre ++ (old.render f).block ++ rest)
        = .ok p
      ∧ (p.verdict = .current ↔ new.lines <+: old.lines)
      ∧ (Recognizer.ofNotice new f).correction? p
        = if new.lines <+: old.lines then none
          else some (pre ++ (new.render f).block ++ rest) := by
  have hprefixed := CommentFormat.prefixed_of_known? hf hw
  have hbare := CommentFormat.isBare_of_mem_lines hprefixed.unbroken hlf
  generalize ht : pre ++ (old.render f).block ++ rest = t
  obtain ⟨hfound, hbefore, hbehind⟩ :=
    @Recognizer.settled_of_prefixed f old new
      hprefixed hold hlf htwo pre hpre hquiet rest t ht.symm
  have hp := Recognizer.parse_eq (Recognizer.ofNotice new f) t
  generalize (Recognizer.ofNotice new f).regions t = p at hp
  have hcontent : ((old.render f).lines.map (· ++ ['\n'])
      ++ ['\n'] :: (Text.lines rest ++ [[]])).map content
      = (old.render f).lines ++ []
      :: (Text.lines rest ++ [[]]).map content := by
    rw [List.map_append, Header.map_content_lines hbare]
    rfl
  have hcurrent : p.verdict = .current ↔ new.lines <+: old.lines := by
    rw [Recognizer.verdict_of_parse hp, Search.verdict_eq_current,
      Recognizer.matched_iff hfound, hbehind, hcontent]
    exact Recognizer.accepts_iff_prefix hprefixed _
  refine ⟨p, hp, hcurrent, ?_⟩
  split
  · rename_i hprefix
    rw [Recognizer.correction?, hcurrent.2 hprefix]
  · rename_i hprefix
    -- the header is found, and it is not the expected one
    have hstale : p.verdict = .stale := by
      cases hv : p.verdict with
      | current => exact absurd (hcurrent.1 hv) hprefix
      | stale => rfl
      | missing => exact absurd (Recognizer.verdict_of_parse hp ▸ hv) hfound
    have hafter :=
      Recognizer.after_of_prefixed hprefixed hbare htwo hprefix hfound
        hbehind
    rw [Recognizer.correction?_of_stale hp hstale, hbefore, hafter,
      Text.flatten_lines, List.flatten_append, Text.flatten_lines]
    simp
    rfl

/-- The notice of a script gets a line more; the comment below its header
stays. -/
theorem correction_replaces_block_of_script :
    (Recognizer.ofNotice
        ⟨["Copyright (c) 2024 A".toList, "MIT".toList, "B".toList], by simp,
          by decide, by decide⟩
        ((CommentFormat.banner '#' "#").keeping "#!")).correction?
        ((Recognizer.ofNotice
          ⟨["Copyright (c) 2024 A".toList, "MIT".toList, "B".toList], by simp,
            by decide, by decide⟩
          ((CommentFormat.banner '#' "#").keeping "#!")).regions
          ("#!/bin/sh\n".toList
            ++ (List.replicate 80 '#'
              ++ "\n# Copyright (c) 2024 A\n# MIT\n\n".toList)
            ++ "# Starts.\nexit 0".toList))
      = some ("#!/bin/sh\n".toList
        ++ (List.replicate 80 '#'
          ++ "\n# Copyright (c) 2024 A\n# MIT\n# B\n\n".toList)
        ++ "# Starts.\nexit 0".toList) := by
  obtain ⟨p, hp, -, hcorrection⟩ := @correction_replaces_block
    "sh".toList ((CommentFormat.banner '#' "#").keeping "#!")
    (by decide +kernel) (by decide)
    ⟨["Copyright (c) 2024 A".toList,
        "MIT".toList], by simp, by decide, by decide⟩
    ⟨["Copyright (c) 2024 A".toList, "MIT".toList, "B".toList],
      by simp, by decide, by decide⟩
    (by decide) (by decide) (by decide)
    "#!/bin/sh\n".toList (Or.inr (by decide)) (by decide +kernel)
    "# Starts.\nexit 0".toList
  rw [if_neg (by decide)] at hcorrection
  rw [Recognizer.eq_regions_of_parse hp] at hcorrection
  exact hcorrection

end CopyrightNotice
