/-
What becomes of a header that is cut off: the opening line, the first lines
of the body, a blank line, and then whatever comes.

# Cut below the second line or further down

The search has seen two lines of the notice by then and knows that it is in
a header. The blank line is where that header first differs, and the line
that ends it. So the header is stale, and the block takes its place
(`stale_of_cut`).

# Cut below the first line

The search still holds the first line, and a blank line shows that no
notice follows: the cut header is ordinary text, and the search is back
where it began (`scanning_of_cut`). What is found in the file is what is
found in the rest of it (`regions_append`).
-/
import CopyrightNotice.Proofs.Header.Replacement

namespace CopyrightNotice

open Text (content)

-- ============================================================ cut headers

namespace Header

/-- The lines of a header as they stand in a file, up to a place of the
body. -/
def upTo (h : Header) (place : Nat) : List Text :=
  (h.opening.toList ++ h.body.take place).map (· ++ ['\n'])

/-- A header that is cut off at a place of its body, a blank line below
it. -/
def cut (h : Header) (place : Nat) : Text := (h.upTo place).flatten ++ ['\n']

variable {h : Header}

theorem isBare_of_mem_upTo (hbare : ∀ line ∈ h.lines, line.IsBare)
    (place : Nat) :
    ∀ line ∈ h.opening.toList ++ h.body.take place, line.IsBare := by
  intro line hl
  refine hbare line ?_
  rcases List.mem_append.1 hl with hl | hl
  · exact List.mem_append_left _ hl
  · exact List.mem_append_right _ (List.mem_of_mem_take hl)

theorem isComplete_of_mem_upTo (hbare : ∀ line ∈ h.lines, line.IsBare)
    (place : Nat) :
    ∀ line ∈ h.upTo place ++ [['\n']], Text.IsComplete line := by
  intro line hl
  rcases List.mem_append.1 hl with hl | hl
  · exact Text.isComplete_of_mem_map (isBare_of_mem_upTo hbare place) line hl
  · rw [List.mem_singleton.1 hl]
    exact ⟨[], by simp, rfl⟩

/-- A cut header is put together from them. -/
theorem cut_eq_flatten (h : Header) (place : Nat) :
    h.cut place = (h.upTo place ++ [['\n']]).flatten := by
  simp [cut]

/-- A cut header in front of a text has lines of its own. -/
theorem lines_cut_append (hbare : ∀ line ∈ h.lines, line.IsBare) (place : Nat)
    (t : Text) :
    Text.lines (h.cut place ++ t)
      = h.upTo place ++ ['\n'] :: Text.lines t := by
  rw [cut_eq_flatten,
    Text.lines_flatten_append (isComplete_of_mem_upTo hbare place)]
  simp

theorem lines_cut (hbare : ∀ line ∈ h.lines, line.IsBare) (place : Nat) :
    Text.lines (h.cut place) = h.upTo place ++ [['\n']] := by
  simpa [Text.lines] using lines_cut_append hbare place []

/-- The lines of a cut header read as they are written. -/
private theorem map_content_upTo (hbare : ∀ line ∈ h.lines, line.IsBare)
    (place : Nat) :
    (h.upTo place).map content = h.opening.toList ++ h.body.take place :=
  Text.map_content_of_isBare (isBare_of_mem_upTo hbare place)

/-- Cut below its first line or further down, a header has an opener under
its opening line. -/
theorem upTo_succ (h : Header) (place : Nat) :
    h.upTo (place + 1) = h.opening.toList.map (· ++ ['\n'])
      ++ (h.body.head h.body_ne_nil ++ ['\n'])
        :: (h.body.tail.take place).map (· ++ ['\n']) := by
  have hbody : h.body.take (place + 1)
      = h.body.head h.body_ne_nil :: h.body.tail.take place :=
    calc h.body.take (place + 1)
        = (h.body.head h.body_ne_nil :: h.body.tail).take (place + 1) := by
          rw [List.cons_head_tail]
      _ = h.body.head h.body_ne_nil :: h.body.tail.take place :=
        List.take_succ_cons
  rw [upTo, List.map_append, hbody, List.map_cons]

end Header

namespace Recognizer

variable {r : Recognizer}

-- ===================================================== below ordinary text

/-- Lines that leave a search as it began are ordinary text above whatever
follows them. -/
private theorem regions_append {above : List Text}
    (hcomplete : ∀ line ∈ above, Text.IsComplete line)
    (hscanning : (r.run .scanning above).2 = .scanning) (rest : Text) :
    r.regions (above.flatten ++ rest)
      = { r.regions rest with
          before := above ++ (r.regions rest).before } := by
  obtain ⟨ls, hls, hlines⟩ :=
    @run_eq_of_missing r above (by rw [hscanning]; rfl)
  rw [hscanning] at hlines
  obtain rfl : ls = above := by simpa [Search.held] using hlines
  have hclosed : Text.closedLines (ls.flatten ++ rest)
      = ls ++ rest.closedLines := by
    rw [Text.closedLines, Text.lines_flatten_append hcomplete,
      List.append_assoc]
    rfl
  have hreal : ls.filter (fun line : Text => !line.isEmpty) = ls := by
    refine List.filter_eq_self.2 fun line hl => ?_
    obtain ⟨front, -, rfl⟩ := hcomplete line hl
    simp
  have hsettled :=
    Settled.of_append (ls.map .before) (r.run .scanning rest.closedLines).1
  rw [Settled.of_map_before] at hsettled
  simp only [Settled.of, Settled.mk.injEq] at hsettled
  obtain ⟨-, hbefore, hheader, hafter, hmismatch⟩ := hsettled
  rw [regions, hclosed, run_append, hls, hscanning]
  simp only [Regions.ofRun, regions, hbefore, hheader, hafter, hmismatch,
    List.append_assoc, List.filter_append, hreal]
  simp

-- ============================================ below the second line

section
variable (hr : r.Readable)
include hr

/-- A header that is cut off stands in the file with its first line as an
opener. -/
theorem carries_cut (place : Nat) (rest : Text) :
    r.Carries (r.header.cut (place + 1) ++ rest) []
      (r.header.opening.toList.map (· ++ ['\n']))
      (r.header.body.head r.header.body_ne_nil ++ ['\n'])
      ((r.header.body.tail.take place).map (· ++ ['\n'])) rest := by
  refine ⟨?_, nofun, ?_, hr.opening, ?_⟩
  · rw [Header.lines_cut_append hr.bare, Header.upTo_succ]
    simp
  · exact Text.map_content_of_isBare fun line hl =>
      hr.bare line (List.mem_append_left _ hl)
  · exact (CommentFormat.isOpener_append_lf _ _).trans hr.first

/-- With its second line in place, a header that is cut off is found. -/
private theorem settled_of_cut {place : Nat} (htwo : 2 ≤ place)
    (hlt : place < r.header.body.length) (rest : Text) :
    (r.run .scanning (r.header.cut place ++ rest).closedLines).2.verdict
        ≠ .missing
      ∧ (Settled.of
          (r.run .scanning (r.header.cut place ++ rest).closedLines).1).before
        = []
      ∧ (Settled.of (r.run .scanning
            (r.header.cut place ++ rest).closedLines).1).header
          ++ (Settled.of
            (r.run .scanning (r.header.cut place ++ rest).closedLines).1).after
        = r.header.upTo place ++ ['\n'] :: (Text.lines rest ++ [[]]) := by
  obtain ⟨below, rfl⟩ : ∃ below, place = below + 2 := ⟨place - 2, by omega⟩
  obtain ⟨second, others, htail⟩ : ∃ second others,
      r.header.body.tail = second :: others := by
    refine List.exists_cons_of_length_pos ?_
    rw [List.length_tail]
    omega
  have hbody : r.header.body[1]? = some second := by
    rw [← List.getElem?_tail, htail]
    rfl
  -- the second line is there, so the first is no false start
  have hbegins : ¬ r.FalseStart
      ([] ++ r.header.opening.toList.map (· ++ ['\n'])).getLast?
      (r.header.body.head r.header.body_ne_nil ++ ['\n'])
      ((r.header.body.tail.take (below + 1)).map (· ++ ['\n'])
        ++ [['\n']]).head? := by
    intro hstart
    refine hstart.second ?_
    have hbare :=
      hr.bare second (List.mem_append_right _ (List.mem_of_getElem? hbody))
    rw [htail]
    show some (content (second ++ ['\n'])) = r.header.body[1]?
    rw [hbody, Text.content_append_lf, hbare.2]
  obtain ⟨hfound, hbefore, hbehind⟩ :=
    (carries_cut hr (below + 1) rest).settled hbegins
  refine ⟨hfound, hbefore, hbehind.trans ?_⟩
  rw [Header.upTo_succ]
  simp

/-- They do so in front of other lines, too, with an empty line between. -/
theorem map_content_cut (place : Nat) (more : List Text) :
    (r.header.upTo place ++ ['\n'] :: more).map content
      = (r.header.opening.toList ++ r.header.body.take place)
        ++ [] :: more.map content := by
  rw [List.map_append, Header.map_content_upTo hr.bare]
  rfl

/-- The blank line stands where a line of the body is expected. -/
private theorem differsAt_cut {place : Nat}
    (hlt : place < r.header.body.length) (hne : r.header.body[place] ≠ [])
    (more : List Text) :
    DiffersAt ((r.header.upTo place ++ ['\n'] :: more).map content)
      r.header.lines (r.header.opening.toList.length + place) := by
  refine ⟨_, [], _, _, _, map_content_cut hr place more,
    r.lines_eq_take_append hlt, hne.symm, ?_⟩
  rw [List.length_append, List.length_take, Nat.min_eq_left (Nat.le_of_lt hlt)]

/-- Cut off below its second line or further down, a header is stale and
ends with the blank line. -/
private theorem stale_of_cut {place : Nat} (htwo : 2 ≤ place)
    (hlt : place < r.header.body.length) (hne : r.header.body[place] ≠ [])
    (rest : Text) :
    (r.regions (r.header.cut place ++ rest)).verdict = .stale
      ∧ (r.regions (r.header.cut place ++ rest)).before = []
      ∧ (r.regions (r.header.cut place ++ rest)).header
        = Text.lines (r.header.cut place)
      ∧ (r.regions (r.header.cut place ++ rest)).after = Text.lines rest
      ∧ r.correction? (r.regions (r.header.cut place ++ rest))
        = some (r.header.block ++ rest) := by
  obtain ⟨hfound, hbefore, hbehind⟩ := settled_of_cut hr htwo hlt rest
  have hlines := Header.lines_cut_append hr.bare place rest
  generalize r.header.cut place ++ rest = t at hfound hbefore hbehind hlines ⊢
  have hdiffers := differsAt_cut hr hlt hne (Text.lines rest ++ [[]])
  -- the search resumes right at the blank line, and that is no comment
  have hresume : resume (r.openerPlace (r.header.upTo place
      ++ ['\n'] :: (Text.lines rest ++ [[]]))) (r.header.opening.toList.length
      + place)
      = (r.header.upTo place).length := by
    have hlen : (r.header.upTo place).length
        = r.header.opening.toList.length + place := by
      rw [Header.upTo, List.length_map, List.length_append, List.length_take,
        Nat.min_eq_left (Nat.le_of_lt hlt)]
    have hcontent := map_content_cut hr place (Text.lines rest ++ [[]])
    rw [List.append_assoc] at hcontent
    rw [openerPlace_of_map_content hcontent, resume_add,
      resume_zero_of_two_le htwo, hlen]
  have hafter : (Settled.of (r.run .scanning t.closedLines).1).after
      = Text.lines rest ++ [[]] := by
    refine after_of_inner hfound hbehind rfl hdiffers (Nat.le_of_eq hresume) ?_
    rw [hresume, List.drop_length]
    nofun
  have hmatched : (r.run .scanning t.closedLines).2 ≠ .matched := by
    intro hmatched
    obtain ⟨last, more, haccepted, -⟩ := (matched_iff hfound).1 hmatched
    rw [hbehind] at haccepted
    exact hdiffers.not_prefix' ⟨last :: more, haccepted.symm⟩
  have hp := parse_eq r t
  have hstale := stale_of_found hp hfound hmatched
  obtain ⟨hfront, ⟨-, hreal⟩ | ⟨-, hnil, -⟩⟩ :=
    settled_of_parse hp (by simp [hstale])
  · -- of the two ways to settle a stale header, the one in which lines are
    -- left over
    have hrest : (r.regions t).after = Text.lines rest := by
      rw [hafter] at hreal
      exact (List.append_cancel_right hreal).symm
    have hnone : (r.regions t).before = [] := hfront.symm.trans hbefore
    refine ⟨hstale, hnone, ?_, hrest, ?_⟩
    · have hall := append_regions r t
      rw [hnone, hrest, hlines, List.nil_append] at hall
      rw [Header.lines_cut hr.bare]
      exact List.append_cancel_right (hall.trans (by simp))
    · rw [correction?, hstale]
      simp [hnone, hrest, Text.flatten_lines]
  · rw [hafter] at hnil
    simp at hnil

-- ============================================== below the first line

/-- Cut off below its first line, a header leaves a search as it began. -/
private theorem scanning_of_cut (hblank : r.isMarker ['\n'] = false)
    (htwo : 2 ≤ r.header.body.length) (hne : r.header.body[1]? ≠ some []) :
    (r.run .scanning (r.header.upTo 1 ++ [['\n']])).2 = .scanning := by
  have hcarries := carries_cut hr 0 []
  have hstart : r.FalseStart
      (r.header.opening.toList.map (· ++ ['\n'])).getLast?
      (r.header.body.head r.header.body_ne_nil ++ ['\n']) (some ['\n']) := by
    refine ⟨htwo, ?_, ?_, ?_, ?_⟩
    · intro o ho
      have hbare := hr.bare o (List.mem_append_left _ (Option.mem_toList.2 ho))
      simp [ho, Text.content_append_lf, hbare.2]
    · have hbare := hr.bare _ (List.mem_append_right _ (List.head_mem
        r.header.body_ne_nil))
      rw [Text.content_append_lf, hbare.2]
    · exact fun hsecond => hne hsecond.symm
    · intro next hnext
      obtain rfl := Option.some.inj hnext
      exact CommentFormat.isContinuation_of_content_eq_nil _ rfl
  have hquiet : r.Quiet (r.header.upTo 1 ++ [['\n']]) none := by
    rw [Header.upTo_succ]
    have htop :=
      @quiet_of_no_opener r ([] ++ r.header.opening.toList.map (· ++ ['\n']))
        hcarries.isOpener_eq_false
        (some (r.header.body.head r.header.body_ne_nil ++ ['\n']))
    refine Quiet.concat (htop.concat fun _ => hstart) fun hopen => ?_
    rw [← CommentFormat.isOpener_content, Text.content_lf,
      CommentFormat.isOpener_nil] at hopen
    cases hopen
  rw [run_of_quiet hr.opening hquiet, pending_concat, hblank,
    ← CommentFormat.isOpener_content, Text.content_lf,
    CommentFormat.isOpener_nil]
  rfl

/-- So what is found in the file is what is found below it. -/
private theorem regions_cut_append (hblank : r.isMarker ['\n'] = false)
    (htwo : 2 ≤ r.header.body.length) (hne : r.header.body[1]? ≠ some [])
    (rest : Text) :
    r.regions (r.header.cut 1 ++ rest)
      = { r.regions rest with before := Text.lines (r.header.cut 1)
            ++ (r.regions rest).before } := by
  rw [Header.lines_cut hr.bare, Header.cut_eq_flatten]
  exact regions_append (Header.isComplete_of_mem_upTo hr.bare 1)
    (scanning_of_cut hr hblank htwo hne) rest

end

end Recognizer

-- =============================================================== result

/-- In a known format with a leader, a header on top of a file that is cut
off below its second line or further down is stale, and an update puts the
block in its place. One that is cut off below its first line is ordinary
text: the file is split as what follows it is. -/
theorem cut_header_verdict {extension : Text} {f : CommentFormat}
    (hf : CommentFormat.known? extension = some f) (hw : f.isWrapped = false)
    {notice : Notice} (hnotice : notice.isRecognizable = true)
    (hlf : ∀ line ∈ notice.lines, '\n' ∉ line) {place : Nat} (hpos : 1 ≤ place)
    (hlt : place < notice.lines.length) (rest : Text) :
    ∃ p, (Recognizer.ofNotice notice f).parse
          ((notice.render f).cut place ++ rest)
        = .ok p
      ∧ (2 ≤ place →
        p.verdict = .stale
          ∧ p.before = []
          ∧ p.header = Text.lines ((notice.render f).cut place)
          ∧ p.after = Text.lines rest
          ∧ (Recognizer.ofNotice notice f).correction? p
            = some ((notice.render f).block ++ rest))
      ∧ (place = 1 →
        ∃ q, (Recognizer.ofNotice notice f).parse rest = .ok q
          ∧ p = { q with before := Text.lines ((notice.render f).cut 1)
              ++ q.before }) := by
  have hprefixed := CommentFormat.prefixed_of_known? hf hw
  have hreadable : (Recognizer.ofNotice notice f).Readable :=
    (Recognizer.legible_ofNotice hprefixed.toRegular hnotice hlf).toReadable
  have hbody : (Recognizer.ofNotice notice f).header.body
      = notice.lines.map f.comment :=
    hprefixed.body_render
  have hlen : (Recognizer.ofNotice notice f).header.body.length
      = notice.lines.length := by
    rw [hbody, List.length_map]
  have hne : [] ∉ (Recognizer.ofNotice notice f).header.body := by
    intro hnil
    exact hprefixed.ne_nil_of_mem_lines [] (List.mem_append_right _ hnil) rfl
  refine ⟨_, Recognizer.parse_eq _ _, fun htwo => ?_, fun hone => ?_⟩
  · -- two lines or more: the cut shows as a difference in the body
    have hplace : place
        < (Recognizer.ofNotice notice f).header.body.length := by
      rwa [hlen]
    exact Recognizer.stale_of_cut hreadable htwo hplace
      (fun hnil => hne (hnil ▸ List.getElem_mem hplace)) rest
  · -- one line: a false start, and the search goes on below it
    subst hone
    refine ⟨_, Recognizer.parse_eq _ rest, ?_⟩
    exact Recognizer.regions_cut_append hreadable
      (Recognizer.isMarker_of_content_eq_nil rfl) (by rw [hlen]; exact hlt)
      (fun hnil => hne (List.mem_of_getElem? hnil)) rest

/-- A three-line notice of which a script has the banner and two lines, the
second of them empty. -/
theorem cut_header_verdict_of_script :
    (Recognizer.ofNotice
        ⟨["Copyright (c) A".toList, [], "B".toList], by simp, by decide,
          by decide⟩
        (CommentFormat.banner '#' "#")).correction?
        ((Recognizer.ofNotice
          ⟨["Copyright (c) A".toList, [], "B".toList], by simp, by decide,
            by decide⟩
          (CommentFormat.banner '#' "#")).regions
          (List.replicate 80 '#'
            ++ "\n# Copyright (c) A\n#\n\n# Starts.\nexit 0".toList))
      = some (List.replicate 80 '#'
        ++ "\n# Copyright (c) A\n#\n# B\n\n# Starts.\nexit 0".toList) := by
  obtain ⟨p, hp, hstale, -⟩ := @cut_header_verdict
    "rb".toList (CommentFormat.banner '#' "#") (by decide +kernel) (by decide)
    ⟨["Copyright (c) A".toList, [], "B".toList], by simp, by decide, by decide⟩
    (by decide) (by decide) 2 (by decide) (by decide)
      "# Starts.\nexit 0".toList
  obtain ⟨-, -, -, -, hcorrection⟩ := hstale (by decide)
  rw [Recognizer.eq_regions_of_parse hp] at hcorrection
  exact hcorrection

/-- Not every header that is cut off is stale: of a notice's first line
alone, above a blank line, nothing tells that it began a header. -/
theorem not_forall_cut_header_stale :
    ¬ ∀ (extension : Text) (f : CommentFormat),
      CommentFormat.known? extension = some f → f.isWrapped = false →
      ∀ notice : Notice, notice.isRecognizable = true →
      (∀ line ∈ notice.lines, '\n' ∉ line) →
      ∀ place : Nat, 1 ≤ place → place < notice.lines.length → ∀ rest : Text,
      ((Recognizer.ofNotice notice f).regions
        ((notice.render f).cut place ++ rest)).verdict = .stale := by
  intro h
  have hstale :=
    h "rs".toList (CommentFormat.led "//") (by decide +kernel) (by decide)
      ⟨["Copyright (c) 2024 Example".toList, "All rights reserved.".toList],
        by simp, by decide, by decide⟩
      (by decide) (by decide) 1 (by decide) (by decide) "fn main() {}\n".toList
  exact absurd hstale (by decide +kernel)

end CopyrightNotice
