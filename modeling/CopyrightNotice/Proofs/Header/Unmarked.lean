/-
Texts without a comment marker.

# What passes for an opener

The test for an opener takes markers off the front of a line where there
are some, and does not ask that there be any. In a line that begins with
no marker it then skips one character, be it a blank, a quotation mark or a
letter. So such a line passes for an opener when the notice's first words
stand directly behind its first character, those apart that markers are
made of (`isOpener_iff_passes`).

# What becomes of it

No line without a marker is the first line of a header, so none that passes
is a false start: where one stands, a header begins, and it is stale. A
text in which no line passes has no header.
-/
import CopyrightNotice.Proofs.Header.Exclusion
import CopyrightNotice.Proofs.Header.Frame

namespace CopyrightNotice

open Text (content)

-- =============================================================== lines

namespace CommentFormat

variable {f : CommentFormat}

/-- A line that begins with neither marker. -/
def Unmarked (f : CommentFormat) (line : Text) : Prop :=
  ∀ marker ∈ [f.leader, f.opening], marker ≠ [] → ¬ marker <+: line

instance (line : Text) : Decidable (f.Unmarked line) :=
  inferInstanceAs (Decidable (∀ marker ∈ [f.leader, f.opening],
    marker ≠ [] → ¬ marker <+: line))

/-- A line with the notice's first words behind any one character, and in
front of that nothing but characters that markers are made of. -/
def Passes (f : CommentFormat) (line : Text) : Prop :=
  ∃ front c rest, content line = front ++ c :: (noticeOpener ++ rest)
    ∧ (∀ m ∈ front, f.isMarkerChar m = true) ∧ f.isMarkerChar c = false

theorem Unmarked.leads_eq_false {line : Text} (h : f.Unmarked line)
    {marker : Text} (hmem : marker ∈ [f.leader, f.opening]) :
    leads marker (content line) = false := by
  by_contra hleads
  rw [Bool.not_eq_false, leads, Bool.and_eq_true, Bool.not_eq_true',
    List.isEmpty_eq_false_iff, List.isPrefixOf_iff_prefix] at hleads
  exact h marker hmem hleads.1 (hleads.2.trans
    (Text.dropEndWhile_isPrefix _ line))

theorem isOpener_iff_passes {line : Text} (h : f.Unmarked line) :
    f.isOpener line = true ↔ f.Passes line := by
  rw [isOpener, f.stripMarkers_eq_self (h.leads_eq_false (by simp))
    (h.leads_eq_false (by simp))]
  constructor
  · intro hopen
    split at hopen
    · cases hopen
    · rename_i c more hdrop
      obtain ⟨rest, hrest⟩ := List.isPrefixOf_iff_prefix.1 hopen
      refine ⟨(content line).takeWhile f.isMarkerChar, c, rest, ?_, ?_, ?_⟩
      · rw [hrest, ← hdrop, List.takeWhile_append_dropWhile]
      · exact fun m hm => List.mem_takeWhile_imp hm
      · have hne : (content line).dropWhile f.isMarkerChar
          ≠ [] := by simp [hdrop]
        have hhead := List.head_dropWhile_not f.isMarkerChar hne
        simpa [hdrop] using hhead
  · rintro ⟨front, c, rest, hline, hfront, hc⟩
    have hdrop : (content line).dropWhile f.isMarkerChar
        = c :: (noticeOpener ++ rest) := by
      rw [hline, List.dropWhile_append_of_pos hfront,
        List.dropWhile_cons_of_neg (by simp [hc])]
    rw [hdrop]
    exact List.isPrefixOf_iff_prefix.2 (List.prefix_append _ _)

/-- An opener without a marker is no line of a notice. -/
private theorem ne_comment_of_unmarked (hf : f.Regular)
    (hblank : f.blank = none) {line : Text} (h : f.Unmarked line)
    (hopen : f.isOpener line = true) (written : Text) :
    content line ≠ f.comment written := by
  intro heq
  have hempty : ∀ marker ∈ [f.leader, f.opening],
      marker <+: f.comment written → marker = [] := by
    intro marker hmem hmarker
    by_contra hne
    rw [← heq] at hmarker
    exact h marker hmem hne (hmarker.trans (Text.dropEndWhile_isPrefix _ line))
  by_cases hwritten : written = []
  · -- an empty line of a notice is the leader alone, or nothing
    have hcomment : f.comment written = f.leader := by
      rw [comment, if_pos hwritten, blankMarker, hblank]
      rfl
    have hleader := hempty f.leader (by simp) (hcomment ▸ List.prefix_rfl)
    rw [← isOpener_content, heq, hcomment, hleader, isOpener_nil] at hopen
    cases hopen
  · have hcomment := f.comment_of_ne_nil hwritten
    by_cases hw : f.isWrapped = true
    · rw [if_pos hw] at hcomment
      have hopening := hempty f.opening (by simp) ⟨_, hcomment.symm⟩
      rcases hf.marked with hleader | hmarked
      · exact hleader (List.isEmpty_iff.1 hw)
      · exact hmarked hopening
    · rw [if_neg hw] at hcomment
      exact hw (List.isEmpty_iff.2 (hempty f.leader (by simp) ⟨_,
        hcomment.symm⟩))

end CommentFormat

-- ============================================================== verdict

namespace Recognizer

variable {f : CommentFormat} {notice : Notice} {t : Text}

section
variable (hf : f.Regular) (hblank : f.blank = none)
  (hplain : ∀ line ∈ Text.lines t, f.Unmarked line)
include hf hblank hplain

/-- An opener is not the expected first line. -/
theorem content_ne_first {line : Text} (hl : line ∈ t.closedLines)
    (hopen : f.isOpener line = true) :
    content line
      ≠ (notice.render f).body.head (notice.render f).body_ne_nil := by
  rw [Notice.head_body_render]
  rcases List.mem_append.1 hl with hl | hl
  · exact CommentFormat.ne_comment_of_unmarked hf hblank
      (hplain line hl) hopen _
  · rw [List.mem_singleton.1 hl, CommentFormat.isOpener_nil] at hopen
    cases hopen

/-- There is no header exactly if no line passes for an opener. -/
private theorem missing_iff_not_passes :
    ((ofNotice notice f).regions t).verdict = .missing
      ↔ ∀ line ∈ Text.lines t, ¬ f.Passes line := by
  constructor
  · intro hm line hl hpasses
    have hopen :=
      (CommentFormat.isOpener_iff_passes (hplain line hl)).2 hpasses
    have hmem : line ∈ t.closedLines := List.mem_append_left _ hl
    obtain ⟨front, behind, hsplit⟩ := List.append_of_mem hmem
    have hquiet : (ofNotice notice f).Quiet t.closedLines none :=
      quiet_of_missing hf.isOpener_opening hm
    have hstart := hquiet front line behind hsplit hopen
    exact content_ne_first hf hblank hplain hmem hopen hstart.first
  · intro hnone
    have hquiet : (ofNotice notice f).Quiet t.closedLines none := by
      refine quiet_of_no_opener (fun line hl => ?_) none
      rcases List.mem_append.1 hl with hl | hl
      · rw [Bool.eq_false_iff]
        exact fun hopen => hnone line hl
          ((CommentFormat.isOpener_iff_passes (hplain line hl)).1 hopen)
      · rw [List.mem_singleton.1 hl, CommentFormat.isOpener_nil]
    have hlast := run_of_quiet hf.isOpener_opening hquiet
    exact (congrArg Search.verdict hlast).trans (verdict_pending _)

/-- No header is the expected one. -/
private theorem verdict_ne_current :
    ((ofNotice notice f).regions t).verdict ≠ .current := by
  intro hc
  obtain ⟨front, line, behind, hsplit, hfirst, hbody⟩ :=
    beginsFirst_of_current hf.isOpener_opening (parse_eq (ofNotice notice f) t)
      hc
  have hmem : line ∈ t.closedLines := by simp [hsplit]
  refine @content_ne_first f notice t hf hblank hplain line hmem
    hfirst.opener ?_
  rw [show (ofNotice notice f).header.body = _ from Notice.body_render_eq_cons,
    List.map_cons, List.cons_prefix_cons] at hbody
  rw [Notice.head_body_render]
  exact hbody.1.symm

end

end Recognizer

-- =============================================================== result

/-- A text in a known format, no line of which begins with a marker, has no
header, and an update only adds one, unless one of its lines passes for an
opener. Then the header is stale, and such a line is part of it. -/
theorem unmarked_text_verdict {extension : Text} {f : CommentFormat}
    (hf : CommentFormat.known? extension = some f) (notice : Notice) {t : Text}
    (hplain : ∀ line ∈ Text.lines t, f.Unmarked line) :
    ∃ p, (Recognizer.ofNotice notice f).parse t = .ok p
      ∧ ((∀ line ∈ Text.lines t, ¬ f.Passes line) →
        p.verdict = .missing ∧ ∃ kept rest,
          Text.lines t = kept ++ rest
          ∧ (Recognizer.ofNotice notice f).correction? p
            = some ((kept.map Text.terminated).flatten
              ++ (notice.render f).block ++ rest.flatten))
      ∧ (∀ line ∈ Text.lines t, f.Passes line →
        p.verdict = .stale ∧ ∃ found ∈ p.header, f.Passes found) := by
  have hregular := CommentFormat.regular_of_known? hf
  have hblank : f.blank = none := by
    obtain ⟨entry, hmem, rfl⟩ := CommentFormat.mem_catalog_of_known? hf
    exact CommentFormat.blank_of_mem_catalog entry hmem
  have hp := Recognizer.parse_eq (Recognizer.ofNotice notice f) t
  have hmissing :=
    @Recognizer.missing_iff_not_passes f notice t hregular hblank hplain
  have hcurrent :=
    @Recognizer.verdict_ne_current f notice t hregular hblank hplain
  refine ⟨_, hp, fun hnone => ?_, fun line hl hpasses => ?_⟩
  · have hm := hmissing.2 hnone
    obtain ⟨kept, rest, hlines, -, hcorrection⟩ :=
      Recognizer.correction?_of_missing hp hm
    exact ⟨hm, kept, rest, hlines, hcorrection⟩
  · have hm : ((Recognizer.ofNotice notice f).regions t).verdict ≠ .missing :=
      fun hm => hmissing.1 hm line hl hpasses
    constructor
    · exact Verdict.eq_stale hm hcurrent
    · -- the opener of the header found is the line that passes
      obtain ⟨front, found, more, hheader, -, hopen⟩ :=
        Recognizer.opens_of_parse hp hm
      have hfound : found
          ∈ ((Recognizer.ofNotice notice f).regions t).header := by
        simp [hheader]
      have hmem : found ∈ Text.lines t := by
        rw [← Recognizer.append_regions (Recognizer.ofNotice notice f) t]
        simp [hfound]
      exact ⟨found, hfound,
        (CommentFormat.isOpener_iff_passes (hplain found hmem)).1 hopen⟩

/-- A bullet in a page of text passes for an opener: the dash is a character
of the format's marker. -/
theorem unmarked_text_verdict_of_query :
    (∀ line ∈ Text.lines "SELECT 1;\n- Copyright (c) 2019 A\n".toList,
      (CommentFormat.led "--").Unmarked line)
    ∧ ((Recognizer.ofNotice
        ⟨["Copyright (c) A".toList, "B".toList], by simp, by decide, by decide⟩
        (CommentFormat.led "--")).regions
      "SELECT 1;\n- Copyright (c) 2019 A\n".toList).verdict = .stale := by
  have hplain :
    ∀ line ∈ Text.lines "SELECT 1;\n- Copyright (c) 2019 A\n".toList,
      (CommentFormat.led "--").Unmarked line := by decide +kernel
  obtain ⟨p, hp, -, hstale⟩ := @unmarked_text_verdict
    "sql".toList (CommentFormat.led "--") (by decide +kernel)
    ⟨["Copyright (c) A".toList, "B".toList], by simp, by decide, by decide⟩ _
      hplain
  refine ⟨hplain, ?_⟩
  rw [← Recognizer.eq_regions_of_parse hp]
  exact (hstale "- Copyright (c) 2019 A\n".toList (by decide +kernel)
    ⟨['-'], ' ', " 2019 A".toList, by decide +kernel,
      List.forall_mem_singleton.2 (by decide), by decide⟩).1

/-- Not every text without a comment is left without a header: a string that
begins with the notice's first words is taken for one. -/
theorem not_forall_unmarked_text_missing :
    ¬ ∀ (extension : Text) (f : CommentFormat),
      CommentFormat.known? extension = some f → ∀ (notice : Notice) (t : Text),
      (∀ line ∈ Text.lines t, f.Unmarked line) →
      ((Recognizer.ofNotice notice f).regions t).verdict = .missing := by
  intro h
  have hmissing := h "rs".toList (CommentFormat.led "//") (by decide +kernel)
    ⟨["Copyright (c) 2024 Example".toList], by simp, by decide, by decide⟩
    ("const OWNER: &str =\n\"Copyright (c) 2020 Example\";\n".toList
      ++ "fn main() \x7b\x7d\n".toList)
    (by decide +kernel)
  exact absurd hmissing (by decide +kernel)

end CopyrightNotice
