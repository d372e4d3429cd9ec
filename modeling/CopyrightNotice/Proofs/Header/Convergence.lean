/-
Where updating a file again and again leads.

# The second update

A text that has been updated has the block in it, below lines kept from
before. It needs another update only if the last of these is held for the
notice's first line when the block comes. In a format with a leader all
lines of the block carry the comment on, down to the blank line. So the
second update takes the held lines away together with the first block, and
puts the block in their place (`correction?_of_held`).

# No third one

The line that is the last one above the block now stood above the held
lines. These carry a comment on, so it cannot have been passed by as the
notice's first line (`front_of_held`), and the block stands to stay.

# The lines around the block

Both updates leave lines of the first text on either side of one block, in
their order (`Encloses`): the second takes some from the upper side and
none from the lower.
-/
import CopyrightNotice.Proofs.Header.Frame
import CopyrightNotice.Proofs.Header.Replacement

namespace CopyrightNotice

open Text (content)

-- ================================================== lines around a block

/-- The new text is the block between two texts that have lines of the old
one, in order, those above the block with their line feeds. -/
def Header.Encloses (h : Header) (old new : Text) : Prop :=
  ∃ front behind above, new = front ++ h.block ++ behind
    ∧ Text.lines front = above.map Text.terminated
    ∧ (above ++ Text.lines behind).Sublist (Text.lines old)

/-- The block between lines of the text encloses them. -/
theorem Header.encloses_of_lines (h : Header) {t : Text}
    {above below : List Text}
    (hcomplete : ∀ line ∈ above.map Text.terminated, Text.IsComplete line)
    (hbelow : below <:+ Text.lines t)
    (hlines : (above ++ below).Sublist (Text.lines t)) :
    h.Encloses t
      ((above.map Text.terminated).flatten ++ h.block ++ below.flatten) :=
  ⟨_, _, above, rfl, Text.lines_flatten_of_isComplete hcomplete,
    by rwa [Text.lines_flatten_of_suffix hbelow]⟩

namespace Recognizer

variable {r : Recognizer} {t t' : Text} {p : Regions}

-- ============================================================== updates

/-- One update after the other, a number of them, leads from a text to
another one. -/
inductive Updates (r : Recognizer) : Nat → Text → Text → Prop where
  | none (t : Text) : Updates r 0 t t
  | next {count : Nat} {t t' last : Text} {p : Regions} (hp : r.parse t
      = .ok p)
      (ht' : r.correction? p = some t') (more : Updates r count t' last) :
      Updates r (count + 1) t last

namespace Updates

variable {count : Nat}

/-- One more update counts. -/
theorem concat (h : r.Updates count t t') (hp : r.parse t' = .ok p)
    {last : Text} (hlast : r.correction? p = some last) :
    r.Updates (count + 1) t last := by
  induction h with
  | none t => exact .next hp hlast (.none last)
  | next hp' ht' _ ih => exact .next hp' ht' (ih hp)

/-- No update leads on from a current text. -/
theorem of_current (h : r.Updates count t t')
    (hc : (r.regions t).verdict = .current) : count = 0 ∧ t' = t := by
  cases h with
  | none => exact ⟨rfl, rfl⟩
  | next hp ht' =>
      rw [eq_regions_of_parse hp, correction?_eq_none_iff.2 hc] at ht'
      cases ht'

/-- Updates go on until the text is current. -/
private theorem current_or_more (r : Recognizer) (t : Text) (count : Nat) :
    (∃ count t' q,
        r.Updates count t t' ∧ r.parse t' = .ok q ∧ q.verdict = .current)
      ∨ ∃ t', r.Updates count t t' := by
  induction count with
  | zero => exact Or.inr ⟨t, .none t⟩
  | succ count ih =>
      rcases ih with hcurrent | ⟨t', h⟩
      · exact Or.inl hcurrent
      · have hp := parse_eq r t'
        cases hnext : r.correction? (r.regions t') with
        | none =>
            exact Or.inl ⟨count, t', _, h, hp, correction?_eq_none_iff.1 hnext⟩
        | some last => exact Or.inr ⟨last, h.concat hp hnext⟩

end Updates

-- ========================================================= first update

/-- An update writes the lines kept, the block, and last lines of the
text. -/
theorem lines_of_correction? (hp : r.parse t = .ok p)
    (ht' : r.correction? p = some t') :
    ∃ above below, r.kept p = above.map Text.terminated
      ∧ t' = (r.kept p).flatten ++ r.header.block ++ below.flatten
      ∧ below <:+ Text.lines t
      ∧ (above ++ below).Sublist (Text.lines t) := by
  cases hv : p.verdict with
  | current =>
      rw [correction?_eq_none_iff.2 hv] at ht'
      cases ht'
  -- the old header goes, and what is around it stays
  | stale =>
      have hkept : r.kept p = p.before := by
        rw [kept, if_neg (by rw [hv]; simp)]
      have hterminated :=
        Text.map_terminated_of_isComplete (isComplete_of_mem_kept hp)
      rw [hkept] at hterminated
      have hlines := append_regions r t
      rw [← eq_regions_of_parse hp] at hlines
      refine ⟨p.before, p.after, by rw [hkept, hterminated], ?_,
        ⟨_, hlines⟩, ?_⟩
      · rw [hkept]
        rw [correction?, hv] at ht'
        exact (Option.some.inj ht').symm
      · rw [← hlines]
        exact List.Sublist.append (List.sublist_append_left ..)
          (List.Sublist.refl _)
  -- no line goes; the block is put between two of them
  | missing =>
      have hsplit := List.takeWhile_append_dropWhile (p := r.format.isPreamble)
        (l := p.before)
      rw [before_of_missing hp hv] at hsplit
      refine ⟨p.before.takeWhile r.format.isPreamble,
        p.before.dropWhile r.format.isPreamble, by rw [kept, if_pos hv], ?_,
        ?_, ?_⟩
      · rw [kept, if_pos hv]
        rw [correction?, hv] at ht'
        exact (Option.some.inj ht').symm
      · rw [before_of_missing hp hv]
        exact ⟨_, hsplit⟩
      · rw [before_of_missing hp hv, hsplit]

/-- A corrected text has the block between lines of the old one. -/
private theorem encloses_of_correction? (hp : r.parse t = .ok p)
    (ht' : r.correction? p = some t') : r.header.Encloses t t' := by
  obtain ⟨above, below, hkept, rfl, hbelow, hlines⟩ :=
    lines_of_correction? hp ht'
  have hcomplete := isComplete_of_mem_kept hp
  rw [hkept] at hcomplete ⊢
  exact r.header.encloses_of_lines hcomplete hbelow hlines

-- ======================================================== second update

section
variable (hr : r.Legible) {above held : List Text}
  (hs : (r.run .scanning above).2 = .opener held)
include hr hs

omit hr in
/-- What is held over the body is the opening line, if there is one, and the
first line. -/
theorem map_content_held :
    held.map content = r.header.opening.toList ++ r.header.body.take 1 := by
  have hknows := knows_run (r := r) above
  rw [hs] at hknows
  exact hknows.2

/-- What is held begins as the header does, so it carries a comment on. -/
private theorem continues_held : ∃ first more, held = first :: more
    ∧ r.format.isContinuation first = true := by
  have hlines : held.map content ++ r.header.body.tail = r.header.lines := by
    rw [map_content_held hs, ← r.lines_eq_first_append]
  cases held with
  | nil =>
      -- the opener itself is held
      have hlen := congrArg List.length (map_content_held hs)
      have hpos := r.length_body_pos
      simp at hlen
      omega
  | cons first more =>
      refine ⟨first, more, rfl, ?_⟩
      rw [← CommentFormat.isContinuation_content]
      exact hr.continues _ (by rw [← hlines]; rfl)

/-- Above the held lines there is no header, nor is the last line there the
notice's first. -/
theorem front_of_held : ∃ front, above = front ++ held
    ∧ (r.run .scanning front).2.verdict = .missing
    ∧ ∀ line, front.getLast? = some line →
      content line ≠ r.header.body.head r.header.body_ne_nil := by
  have hm : (r.run .scanning above).2.verdict = .missing := by
    rw [hs]
    rfl
  obtain ⟨front, -, hsplit⟩ := run_eq_of_missing hm
  rw [hs] at hsplit
  simp only [Search.held] at hsplit
  refine ⟨front, hsplit.symm, ?_, fun line hlast hline => ?_⟩
  · rw [← hsplit, run_append] at hm
    exact (run_missing hm).1
  · -- the held lines would show that a header begins there
    rcases List.eq_nil_or_concat' front with rfl | ⟨init, last, rfl⟩
    · cases hlast
    · rw [List.getLast?_concat] at hlast
      obtain rfl := Option.some.inj hlast
      have hopen : r.format.isOpener last = true := by
        rw [← CommentFormat.isOpener_content, hline]
        exact hr.first
      have hstart := quiet_of_missing hr.opening hm init last held
        (by rw [← hsplit, List.append_assoc]; rfl) hopen
      obtain ⟨first, more, hheld, hcont⟩ := continues_held hr hs
      have hplain := hstart.plain first (by rw [hheld]; rfl)
      rw [hcont] at hplain
      cases hplain

/-- So the block stands to stay in the place of the held lines. -/
private theorem current_of_front
    (hcomplete : ∀ line ∈ above, Text.IsComplete line) {front : List Text}
    (hsplit : above = front ++ held) (behind : Text) :
    (r.regions (front.flatten ++ r.header.block ++ behind)).verdict
      = .current := by
  obtain ⟨front', hsplit', hm, hlast⟩ := front_of_held hr hs
  obtain rfl := List.append_cancel_right (hsplit'.symm.trans hsplit)
  rw [verdict_of_block hr (fun line hl =>
      hcomplete line (by simp [hsplit, hl])) hm]
  exact fun line hline heq => absurd heq (hlast line hline)

/-- All lines of the block carry a comment on, so a header that the held
lines begin is those and the block, unless it is the expected one. -/
private theorem after_of_held (hnil : [] ∉ r.header.lines)
    (hinner : ∀ line ∈ r.header.lines, r.format.isInner line = true)
    (hrepeat : ¬ r.header.body.tail <+: r.header.lines) (behind : List Text) :
    (Settled.of
        (r.run .scanning (above ++ r.header.blockLines ++ behind)).1).after
      = behind := by
  obtain ⟨hm, hbehind⟩ := run_of_held hr hs behind
  have hheld := map_content_held hs
  have hblock : held ++ (r.header.blockLines ++ behind)
      = (held ++ r.header.lines.map (· ++ ['\n'])) ++ ['\n'] :: behind := by
    simp [Header.blockLines]
  have hcontent : (held ++ r.header.lines.map (· ++ ['\n'])).map content
      = (r.header.opening.toList ++ r.header.body.take 1)
      ++ r.header.lines := by
    rw [List.map_append, hheld, Header.map_content_lines hr.bare]
  refine after_of_blank hnil hm (hbehind.trans hblock)
    (hcontent.trans (List.append_assoc ..)) ?_ ?_ ?_
  · have hpos := r.length_body_pos
    rw [List.length_append, List.length_take, Header.lines, List.length_append]
    omega
  · -- below the lines that both begin with, the header would go on
    intro hprefix
    have hbelow : (r.header.opening.toList ++ r.header.body.take 1)
          ++ r.header.body.tail
        <+: (r.header.opening.toList ++ r.header.body.take 1)
          ++ r.header.lines := by
      rwa [← r.lines_eq_first_append, ← hcontent]
    exact hrepeat ((List.prefix_append_right_inj _).1 hbelow)
  · intro line hl
    have hmem : content line ∈ r.header.lines := by
      have hmem := List.mem_map_of_mem (f := content) hl
      rw [hcontent] at hmem
      rcases List.mem_append.1 hmem with hmem | hmem
      · rw [r.lines_eq_first_append]
        exact List.mem_append_left _ hmem
      · exact hmem
    rw [← CommentFormat.isInner_content]
    exact hinner _ hmem

/-- Lines above a held opening are before the header. -/
private theorem before_of_held {front : List Text}
    (hsplit : above = front ++ held) (behind : List Text) :
    (Settled.of
        (r.run .scanning (above ++ r.header.blockLines ++ behind)).1).before
      = front := by
  obtain ⟨hm, hbehind⟩ := run_of_held hr hs behind
  have hall := append_settled hm
  rw [List.append_assoc, hbehind] at hall
  refine List.append_cancel_right (hall.trans ?_)
  rw [hsplit]
  simp only [List.append_assoc]

/-- An update takes the held lines and the block away and puts the block in
their place. -/
private theorem correction?_of_held (hnil : [] ∉ r.header.lines)
    (hinner : ∀ line ∈ r.header.lines, r.format.isInner line = true)
    (hrepeat : ¬ r.header.body.tail <+: r.header.lines)
    (hcomplete : ∀ line ∈ above, Text.IsComplete line)
    {front : List Text} (hsplit : above = front ++ held) (behind : Text) :
    r.correction? (r.regions (above.flatten ++ r.header.block ++ behind))
      = some (front.flatten ++ r.header.block ++ behind) := by
  have hp := parse_eq r (above.flatten ++ r.header.block ++ behind)
  have hclosed := Header.closedLines_block hr.bare hcomplete behind
  obtain ⟨hm, -⟩ := run_of_held hr hs (Text.lines behind ++ [[]])
  have hmatched := matched_of_held_iff hr hs (map_content_held hs)
    (Text.lines behind ++ [[]])
  rw [← hclosed] at hm hmatched
  have hstale := stale_of_found hp hm fun heq => hrepeat (hmatched.1 heq)
  rw [correction?_of_stale hp hstale, hclosed, before_of_held hr hs hsplit,
    after_of_held hr hs hnil hinner hrepeat]
  simp [Text.flatten_lines]

end

-- ========================================================= no third one

section
variable (hr : r.Legible) (hnil : [] ∉ r.header.lines)
  (hinner : ∀ line ∈ r.header.lines, r.format.isInner line = true)
include hr hnil hinner

/-- The block below whole lines without a header is the expected one, or
the next update takes some of these lines away and leaves nothing to do. -/
private theorem current_or_corrected {above : List Text}
    (hcomplete : ∀ line ∈ above, Text.IsComplete line)
    (hm : (r.run .scanning above).2.verdict = .missing) (behind : Text) :
    (r.regions (above.flatten ++ r.header.block ++ behind)).verdict = .current
      ∨ ∃ front held, above = front ++ held
        ∧ r.correction? (r.regions (above.flatten ++ r.header.block ++ behind))
          = some (front.flatten ++ r.header.block ++ behind)
        ∧ (r.regions (front.flatten ++ r.header.block ++ behind)).verdict
          = .current := by
  by_cases hwait : r.Waiting (r.run .scanning above).2
  · left
    rw [verdict_of_block hr hcomplete hm]
    exact fun line hlast hline =>
      absurd hline ((waiting_iff_of_missing hr.toReadable hm).1
        hwait line hlast)
  · obtain ⟨held, hs, -⟩ := held_of_not_waiting hm hwait
    by_cases hrepeat : r.header.body.tail <+: r.header.lines
    · left
      rw [verdict_of_block hr hcomplete hm]
      exact fun _ _ _ => hrepeat
    · right
      obtain ⟨front, hsplit, -⟩ := front_of_held hr hs
      exact ⟨front, held, hsplit,
        correction?_of_held hr hs hnil hinner hrepeat hcomplete hsplit behind,
        current_of_front hr hs hcomplete hsplit behind⟩

/-- What an update writes is current, or becomes so with the next one. -/
private theorem settled_or_corrected (hp : r.parse t = .ok p)
    (ht' : r.correction? p = some t') :
    (r.regions t').verdict = .current
      ∨ ∃ last, r.correction? (r.regions t') = some last
        ∧ (r.regions last).verdict = .current
        ∧ r.header.Encloses t last := by
  obtain ⟨above, below, hkept, rfl, hbelow, hlines⟩ :=
    lines_of_correction? hp ht'
  have hcomplete := isComplete_of_mem_kept hp
  rcases current_or_corrected hr hnil hinner hcomplete (missing_of_kept hp)
      below.flatten with
    hcurrent | ⟨front, held, hsplit, hcorrection, hcurrent⟩
  · exact Or.inl hcurrent
  · refine Or.inr ⟨_, hcorrection, hcurrent, ?_⟩
    rw [hsplit] at hcomplete hkept
    obtain ⟨top, dropped, rfl, rfl, -⟩ := List.map_eq_append_iff.1 hkept.symm
    refine r.header.encloses_of_lines
      (fun line hl => hcomplete line (List.mem_append_left _ hl)) hbelow ?_
    have hsub := List.sublist_append_left top dropped
    exact (hsub.append_right below).trans hlines

/-- Updates of a text are two at most, and leave the block between lines of
that text. -/
private theorem Updates.le_two {count : Nat} {last : Text}
    (h : r.Updates count t last) :
    count ≤ 2 ∧ (0 < count → r.header.Encloses t last) := by
  cases h with
  | none => exact ⟨Nat.zero_le 2, nofun⟩
  | next hp hfirst more =>
      have hencloses := encloses_of_correction? hp hfirst
      rcases settled_or_corrected hr hnil hinner hp hfirst with
        hcurrent | ⟨new, hnew, hcurrent, hnext⟩
      · obtain ⟨rfl, rfl⟩ := more.of_current hcurrent
        exact ⟨Nat.le_succ 1, fun _ => hencloses⟩
      · cases more with
        | none => exact ⟨Nat.le_succ 1, fun _ => hencloses⟩
        | next hp' hsecond more =>
            rw [eq_regions_of_parse hp', hnew] at hsecond
            obtain rfl := Option.some.inj hsecond
            obtain ⟨rfl, rfl⟩ := more.of_current hcurrent
            exact ⟨Nat.le_refl 2, fun _ => hnext⟩

end

end Recognizer

-- =============================================================== result

/-- In a known format with a leader, updating a text for a notice with the
usual first words comes to an end, after two updates at most: the text is
current then. If it was updated at all, it is the block between lines that
it had before. -/
theorem updates_settle {extension : Text} {f : CommentFormat}
    (hf : CommentFormat.known? extension = some f) (hw : f.isWrapped = false)
    {notice : Notice} (hnotice : notice.isRecognizable = true)
    (hlf : ∀ line ∈ notice.lines, '\n' ∉ line) (t : Text) :
    (∃ count t' q, (Recognizer.ofNotice notice f).Updates count t t'
      ∧ (Recognizer.ofNotice notice f).parse t' = .ok q ∧ q.verdict = .current)
    ∧ ∀ count t', (Recognizer.ofNotice notice f).Updates count t t' →
        count ≤ 2 ∧ (0 < count → (notice.render f).Encloses t t') := by
  have hprefixed := CommentFormat.prefixed_of_known? hf hw
  have hlegible := Recognizer.legible_ofNotice hprefixed.toRegular hnotice hlf
  have hbound : ∀ count t', (Recognizer.ofNotice notice f).Updates count t t' →
      count ≤ 2 ∧ (0 < count → (notice.render f).Encloses t t') :=
      fun count t' h =>
    h.le_two hlegible (fun hl => hprefixed.ne_nil_of_mem_lines [] hl rfl)
      fun line hl =>
      hprefixed.isInner_of_mem_lines line hl (hlegible.bare line hl)
  refine ⟨?_, hbound⟩
  rcases Recognizer.Updates.current_or_more
      (Recognizer.ofNotice notice f) t 3 with hcurrent | ⟨t', h⟩
  · exact hcurrent
  · exact absurd (hbound 3 t' h).1 (by decide)

/-- A string constant is taken for a header, and the block that replaces it
for the rest of the comment above. -/
theorem updates_settle_in_program :
    (Recognizer.ofNotice
        ⟨["Copyright (c) A".toList, "B".toList], by simp, by decide, by decide⟩
        (CommentFormat.led "//")).Updates
        2 "// Copyright (c) A\n\"Copyright (c) B\"\nuse std;\n".toList
        "// Copyright (c) A\n// B\n\nuse std;\n".toList
      ∧ Header.Encloses
        (Notice.render
          ⟨["Copyright (c) A".toList, "B".toList], by simp, by decide,
            by decide⟩
          (CommentFormat.led "//"))
        "// Copyright (c) A\n\"Copyright (c) B\"\nuse std;\n".toList
        "// Copyright (c) A\n// B\n\nuse std;\n".toList := by
  have hfirst : (Recognizer.ofNotice
      ⟨["Copyright (c) A".toList, "B".toList], by simp, by decide, by decide⟩
      (CommentFormat.led "//")).correction? ((Recognizer.ofNotice
      ⟨["Copyright (c) A".toList, "B".toList], by simp, by decide, by decide⟩
      (CommentFormat.led "//")).regions
        "// Copyright (c) A\n\"Copyright (c) B\"\nuse std;\n".toList)
      = some
        "// Copyright (c) A\n// Copyright (c) A\n// B\n\nuse std;\n".toList :=
    by decide +kernel
  have htwice := Recognizer.Updates.next (Recognizer.parse_eq _ _) hfirst
    (.next (Recognizer.parse_eq _ _)
      (show _ = some "// Copyright (c) A\n// B\n\nuse std;\n".toList by
        decide +kernel) (.none _))
  exact ⟨htwice, ((updates_settle
    (show CommentFormat.known? "rs".toList = some _ by decide +kernel)
    (by decide) (by decide) (by decide) _).2 2 _ htwice).2 (by decide)⟩

end CopyrightNotice
