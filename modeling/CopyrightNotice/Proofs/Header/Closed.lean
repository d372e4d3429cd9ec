/-
Updates of headers in formats that close their comments.

There the last line of a header is not the only one that ends it, or the
blank line below comes after the line that does. So an old header need not
give way as a whole; when it does is said by `GivesWay`, exactly
(`correction_replaces_closed_block`), and that it does not always is shown
by a style sheet (`not_forall_correction_replaces`).

# Empty lines

What an empty line of the notice is written as may have line ends in it,
where the format says so. The body is then read as more lines than were
written, and these are what matters (`Header.written`).
-/
import CopyrightNotice.Proofs.Comment.Closed
import CopyrightNotice.Proofs.Header.Remnant

namespace CopyrightNotice

open Text (content)

-- ==================================================== the body as read

namespace Header

/-- What the lines of the body are read as. -/
def written (h : Header) : List Text :=
  (Text.lines (h.body.map (· ++ ['\n'])).flatten).map content

variable {h : Header}

/-- Bare lines are read as themselves. -/
private theorem written_eq_body (hbare : ∀ line ∈ h.body, line.IsBare) :
    h.written = h.body := by
  rw [written, Text.lines_flatten_of_isBare hbare,
    Text.map_content_of_isBare hbare]

private theorem lines_body_of_head {first : Text} {others : List Text}
    (hbody : h.body = first :: others) (hfirst : first.IsBare) :
    Text.lines (h.body.map (· ++ ['\n'])).flatten
      = (first ++ ['\n'])
        :: Text.lines (others.map (· ++ ['\n'])).flatten := by
  rw [hbody, List.map_cons, List.flatten_cons,
    Text.lines_append_of_isComplete (Text.isComplete_of_isBare hfirst)]

private theorem getLast?_lines_body {last : Text}
    (hlast : h.body.getLast? = some last) (hbare : last.IsBare) :
    (Text.lines (h.body.map (· ++ ['\n'])).flatten).getLast?
      = some (last ++ ['\n']) := by
  obtain ⟨init, hbody⟩ := List.getLast?_eq_some_iff.1 hlast
  have hline : Text.lines (last ++ ['\n']) = [last ++ ['\n']] := by
    have hlines :=
      Text.lines_append_of_isComplete (Text.isComplete_of_isBare hbare) []
    rwa [List.append_nil] at hlines
  rw [hbody, List.map_append, List.flatten_append,
    Text.lines_append (Text.ends_flatten _), List.map_singleton,
    List.flatten_singleton, hline, List.getLast?_concat]

end Header

namespace Recognizer

variable {f : CommentFormat} {old new : Notice}

/-- An empty line opens no header. -/
private theorem not_opens_of_content_eq_nil {line : Text}
    (hline : content line = []) :
    ¬ ((ofNotice new f).format.isOpener line = true
      ∨ (ofNotice new f).isMarker line = true) := by
  rintro (hopen | hmark)
  · rw [← CommentFormat.isOpener_content, hline,
      CommentFormat.isOpener_nil] at hopen
    cases hopen
  · rw [isMarker_of_content_eq_nil hline] at hmark
    cases hmark

/-- A block on top of a text is carried by it. -/
private theorem carries_closed (hf : f.Closed)
    (hold : old.isRecognizable = true) (hlf : ∀ line ∈ old.lines, '\n' ∉ line)
    (rest : Text) :
    ∃ first more, Text.lines ((old.render f).body.map (· ++ ['\n'])).flatten
        = first :: more
      ∧ (ofNotice new f).Carries ((old.render f).block ++ rest) []
        ((old.render f).opening.toList.map (· ++ ['\n'])) first more rest := by
  have hwords := List.isPrefixOf_iff_prefix.1 hold
  have hbare := Notice.isBare_head hlf
  have hcomment :=
    hf.isBare_comment hbare (CommentFormat.ne_nil_of_noticeOpener hwords)
  exact ⟨_, _, Header.lines_body_of_head Notice.body_render_eq_cons hcomment,
    carries_block hf.isOpener_opening hcomment (hf.isOpener_comment
    hbare hwords)
      (Or.inl rfl) nofun rest⟩

/-- In a format whose markers have no line ends, no update puts the new
block in the place of an old one that begins with a false start. -/
private theorem correction?_ne_of_closed (hf : f.Closed)
    (hunbroken : f.Unbroken) (hlfold : ∀ line ∈ old.lines, '\n' ∉ line)
    (hlfnew : ∀ line ∈ new.lines, '\n' ∉ line) {t : Text} {first : Text}
    {more : List Text} {rest : Text}
    (hlines : Text.lines ((old.render f).body.map (· ++ ['\n'])).flatten
      = first :: more)
    (hcarries : (ofNotice new f).Carries t []
      ((old.render f).opening.toList.map (· ++ ['\n'])) first more rest)
    (hstart : (ofNotice new f).FalseStart
      ((old.render f).opening.toList.map (· ++ ['\n'])).getLast? first
      (more ++ [['\n']]).head?) {p : Regions}
    (hp : (ofNotice new f).parse t = .ok p) :
    (ofNotice new f).correction? p ≠ some ((new.render f).block ++ rest) := by
  refine hcarries.correction?_ne_of_falseStart hp hstart
    (CommentFormat.isBare_of_mem_lines hunbroken hlfnew) ?_
  intro line hline hgoes heq
  have hplain : f.isContinuation line = false := hstart.plain line hline
  have hne : content line ≠ [] :=
    fun hnil => not_opens_of_content_eq_nil hnil hgoes
  -- the line is one of the old body, and an empty one of the notice
  have hmem : content line ∈ (old.render f).body := by
    have hbare : ∀ l ∈ (old.render f).body, l.IsBare := fun l hl =>
      CommentFormat.isBare_of_mem_lines hunbroken hlfold l
        (by simp [Header.lines, hl])
    cases more with
    | nil =>
        obtain rfl : ['\n'] = line := Option.some.inj hline
        exact absurd rfl hne
    | cons second more =>
        obtain rfl : second = line := Option.some.inj hline
        rw [← Header.written_eq_body hbare, Header.written, hlines]
        simp
  have hblank : content line = f.blankMarker := by
    refine (hf.of_mem_body hlfold _ hmem).resolve_left ?_
    rw [CommentFormat.isContinuation_content, hplain]
    exact Bool.false_ne_true
  by_cases hw : f.isWrapped = true
  · exact hne (hblank.trans (hf.blankMarker_eq_nil hw))
  · -- then it is the opening line, which would carry the comment on
    have hw := Bool.eq_false_iff.2 hw
    have hhead : (ofNotice new f).header.lines.head? = some f.opening := by
      show ((new.render f).opening.toList ++ (new.render f).body).head?
        = some f.opening
      rw [hf.opening_render hw]
      rfl
    rw [hhead] at heq
    rw [hf.blankMarker_eq_opening hw (List.mem_of_getElem? heq)] at hblank
    have hleads := CommentFormat.leads_append (hblank ▸ hne) []
    rw [List.append_nil] at hleads
    have hcont :=
      CommentFormat.isContinuation_of_leads (f := f) hf.unbroken.1.isBare
        (Or.inr hleads)
    rw [← hblank, CommentFormat.isContinuation_content, hplain] at hcont
    cases hcont

end Recognizer

-- ================================================================ result

/-- In a format that closes its comments, an update to another notice leaves
a text that begins with the old block alone, or puts the new block in the
place of the old one, if the old header is accepted or gives way. In a
format whose markers have no line ends it does so in no other case. -/
theorem correction_replaces_closed_block {f : CommentFormat} (hf : f.Closed)
    {old new : Notice} (hold : old.isRecognizable = true)
    (hlfold : ∀ line ∈ old.lines, '\n' ∉ line)
    (hlfnew : ∀ line ∈ new.lines, '\n' ∉ line) (rest : Text) :
    ∃ p, (Recognizer.ofNotice new f).parse ((old.render f).block ++ rest)
        = .ok p
      ∧ (p.verdict = .current
        ∨ GivesWay f rest (old.render f).written (new.render f).body →
        (Recognizer.ofNotice new f).correction? p = none
          ∨ (Recognizer.ofNotice new f).correction? p
            = some ((new.render f).block ++ rest))
      ∧ (f.Unbroken →
        (Recognizer.ofNotice new f).correction? p = none
          ∨ (Recognizer.ofNotice new f).correction? p
            = some ((new.render f).block ++ rest) →
        p.verdict = .current
          ∨ GivesWay f rest (old.render f).written (new.render f).body) := by
  obtain ⟨first, more, hlines, hcarries⟩ :=
    @Recognizer.carries_closed f old new hf hold hlfold rest
  have hp := Recognizer.parse_eq (Recognizer.ofNotice new f)
    ((old.render f).block ++ rest)
  generalize (Recognizer.ofNotice new f).regions ((old.render f).block ++ rest)
    = p at hp
  obtain ⟨last, hlast, hbare, -, hends, hcont⟩ := hf.getLast_body hlfold
  obtain ⟨last', hlast', -, hne, -⟩ := hf.getLast_body hlfnew
  -- the last line written ends the comment, in either reading of the block
  have hread : ∀ line, (first :: more).getLast? = some line →
      f.isEnd line = true ∧ f.isContinuation line = true := by
    intro line hline
    rw [← hlines, Header.getLast?_lines_body hlast hbare] at hline
    obtain rfl := Option.some.inj hline
    rw [CommentFormat.isEnd_append_lf, CommentFormat.isContinuation_append_lf]
    exact ⟨hends, hcont⟩
  have hexpected : (new.render f).body.getLast (new.render f).body_ne_nil
      ≠ [] := by
    rw [List.getLast?_eq_some_getLast (new.render f).body_ne_nil] at hlast'
    rw [Option.some.inj hlast']
    exact hne
  have hiff := fun hbegins => hcarries.correction?_eq_iff hbegins hp
    (fun line hline => (hread line hline).1) hexpected
    (hf.isEnd_or_isContinuation hlfnew)
  refine ⟨p, hp, ?_, ?_⟩
  · rintro (hv | hgives)
    · exact Or.inl (Recognizer.correction?_eq_none_iff.2 hv)
    · rw [Header.written, hlines] at hgives
      exact Or.inr ((hiff (Recognizer.Carries.not_falseStart_of_givesWay
        (fun line hline => (hread line hline).2) hgives)).2 hgives)
  · rintro hunbroken (hnone | hsome)
    · exact Or.inl (Recognizer.correction?_eq_none_iff.1 hnone)
    · rw [Header.written, hlines]
      -- over a false start the correction is another one, as no marker breaks
      -- a line
      exact Or.inr ((hiff fun hstart => Recognizer.correction?_ne_of_closed hf
          hunbroken hlfold hlfnew hlines hcarries hstart hp hsome).1 hsome)

/-- A notice of one line gets a second one under starred comments. -/
theorem correction_replaces_starred_block :
    (Recognizer.ofNotice
        ⟨["Copyright (c) A".toList, "MIT".toList], by simp, by decide,
          by decide⟩
        ⟨"/*".toList, " *".toList, " */".toList, none, none⟩).correction?
        ((Recognizer.ofNotice
          ⟨["Copyright (c) A".toList, "MIT".toList], by simp, by decide,
            by decide⟩
          ⟨"/*".toList, " *".toList, " */".toList, none, none⟩).regions
          ("/*\n * Copyright (c) A\n */\n\n".toList ++ "int a;\n".toList))
      = some ("/*\n * Copyright (c) A\n * MIT\n */\n\n".toList
        ++ "int a;\n".toList) := by
  obtain ⟨p, hp, hreplaces, -⟩ := @correction_replaces_closed_block
    ⟨"/*".toList, " *".toList, " */".toList, none, none⟩ (.starred rfl rfl rfl)
    ⟨["Copyright (c) A".toList], by simp, by decide, by decide⟩
    ⟨["Copyright (c) A".toList, "MIT".toList], by simp, by decide, by decide⟩
    (by decide) (by decide) (by decide) "int a;\n".toList
  rw [Recognizer.eq_regions_of_parse hp] at hreplaces
  have hgives := @GivesWay.second ⟨"/*".toList, " *".toList,
    " */".toList, none, none⟩
    "int a;\n".toList [" * Copyright (c) A".toList, " */".toList]
    [" * Copyright (c) A".toList, " * MIT".toList, " */".toList]
    " * Copyright (c) A".toList " */".toList " * MIT".toList [" */".toList]
    rfl rfl (by decide)
  exact (hreplaces (Or.inr hgives)).resolve_left (by decide +kernel)

/-- Not every old header gives way: a style sheet keeps the last line of its
old notice, the blank line below it and all. -/
theorem not_forall_correction_replaces : ¬ ∀ (f : CommentFormat), f.Closed →
    ∀ old new : Notice, old.isRecognizable = true → new.isRecognizable = true →
      (∀ line ∈ old.lines, '\n' ∉ line) → (∀ line ∈ new.lines, '\n' ∉ line) →
      ∀ (rest : Text) (p : Regions), (Recognizer.ofNotice new f).parse
          ((old.render f).block ++ rest)
        = .ok p →
        (Recognizer.ofNotice new f).correction? p = none
          ∨ (Recognizer.ofNotice new f).correction? p
            = some ((new.render f).block ++ rest) := by
  intro h
  have hreplaced := h (CommentFormat.wrapped "/*" "*/")
    (@CommentFormat.Closed.wrapped _ "css".toList (by decide +kernel)
    (by decide))
    ⟨["Copyright (c) 2023 A".toList, "B".toList,
        "MIT".toList], by simp, by decide, by decide⟩
    ⟨["Copyright (c) 2024 A".toList, "B".toList,
        "MIT".toList], by simp, by decide, by decide⟩
    (by decide) (by decide) (by decide) (by decide) "p\n".toList _
      (Recognizer.parse_eq _ _)
  exact absurd hreplaced (by decide +kernel)

end CopyrightNotice
