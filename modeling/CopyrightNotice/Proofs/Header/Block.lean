/-
How the search reads the expected header, wherever it stands.

# The block's lines

A header of bare lines is a block of complete ones: put in front of any
text, the block's lines are lines of the whole (`lines_block_append`).

# Waiting

A search that has seen no opener holds an opening line at most
(`waiting_of_no_opener`). From there the expected lines with a
terminator below them lead through every place of the body to a match,
whatever their line ends (`run_accepted`); behind a match nothing
changes any more. So a run that comes upon them waiting splits its lines
there and nowhere else (`run_around`).
-/
import CopyrightNotice.Proofs.Header.Agreement
import CopyrightNotice.Proofs.Notice.Rendering

namespace CopyrightNotice

open Text (content)

-- ==================================================== the block's lines

namespace Header

/-- The lines of the block. -/
def blockLines (h : Header) : List Text :=
  h.lines.map (· ++ ['\n']) ++ [['\n']]

private theorem flatten_blockLines (h : Header) :
    h.blockLines.flatten = h.block := by
  simp [blockLines, block]

variable {h : Header}

theorem map_content_lines (hbare : ∀ line ∈ h.lines, line.IsBare) :
    (h.lines.map (· ++ ['\n'])).map content = h.lines :=
  Text.map_content_of_isBare hbare

/-- The block's lines read as the header's lines and an empty one. -/
theorem map_content_blockLines (hbare : ∀ line ∈ h.lines, line.IsBare) :
    h.blockLines.map content = h.lines ++ [[]] := by
  rw [blockLines, List.map_append, map_content_lines hbare]
  rfl

/-- The block consists of complete lines. -/
private theorem isComplete_of_mem_blockLines
    (hbare : ∀ line ∈ h.lines, line.IsBare) :
    ∀ line ∈ h.blockLines, Text.IsComplete line := by
  intro line hl
  rcases List.mem_append.1 hl with hl | hl
  · exact Text.isComplete_of_mem_map hbare line hl
  · rw [List.mem_singleton.1 hl]
    exact ⟨[], by simp, rfl⟩

/-- The block's lines are lines of every text that begins with the block. -/
theorem lines_block_append (hbare : ∀ line ∈ h.lines, line.IsBare) (t : Text) :
    Text.lines (h.block ++ t) = h.blockLines ++ Text.lines t := by
  rw [← h.flatten_blockLines]
  exact Text.lines_flatten_append (isComplete_of_mem_blockLines hbare) t

/-- So it is below complete lines. -/
theorem closedLines_block (hbare : ∀ line ∈ h.lines, line.IsBare)
    {above : List Text} (hcomplete : ∀ line ∈ above, Text.IsComplete line)
    (behind : Text) :
    Text.closedLines (above.flatten ++ h.block ++ behind)
      = above ++ h.blockLines ++ (Text.lines behind ++ [[]]) := by
  rw [Text.closedLines, List.append_assoc, Text.lines_flatten_append hcomplete,
    lines_block_append hbare]
  simp only [List.append_assoc]

end Header

namespace Recognizer

variable {r : Recognizer}

-- ============================================================= waiting

/-- A search that holds nothing but, perhaps, an opening line. -/
inductive Waiting (r : Recognizer) : Search → Prop where
  | scanning : Waiting r .scanning
  | marker {line : Text} (hmark : r.isMarker line = true) :
      Waiting r (.marker [line])

/-- A line that reads as the opening line may open a header. -/
theorem isMarker_of_content_eq {opening line : Text}
    (ho : r.header.opening = some opening) (hline : content line = opening) :
    r.isMarker line = true := by
  simp [isMarker, ho, hline, CommentFormat.isMarkerLine]

theorem isMarker_of_opening_none (ho : r.header.opening = none) (line : Text) :
    r.isMarker line = false := by
  simp [isMarker, ho]

/-- An empty line opens no header, since no format has one for its opening
line. -/
theorem isMarker_of_content_eq_nil {notice : Notice} {f : CommentFormat}
    {line : Text} (hline : content line = []) :
    (ofNotice notice f).isMarker line = false := by
  cases ho : (ofNotice notice f).header.opening with
  | none => exact isMarker_of_opening_none ho line
  | some opening =>
      have hne : opening ≠ [] := by
        simp only [ofNotice, Notice.render] at ho
        split at ho
        · rename_i hopening
          obtain rfl := Option.some.inj ho
          simp at hopening
          exact hopening.2
        · cases ho
      obtain ⟨fill, more, rfl⟩ := List.exists_cons_of_ne_nil hne
      simp [isMarker, ho, hline, CommentFormat.isMarkerLine]

/-- A scanned line that opens nothing keeps the search waiting. -/
theorem Scans.waiting {line : Text} {t : Transition}
    (hopen : r.format.isOpener line = false) (ht : r.Scans [] line t) :
    r.Waiting t.next := by
  cases ht with
  | marker _ hmark => exact .marker hmark
  | text => exact .scanning
  | misplaced _ h | unlike _ h | whole _ h | first _ h =>
      rw [hopen] at h
      cases h

/-- So does any step of a waiting search over such a line. -/
theorem Steps.waiting {s : Search} {line : Text} {t : Transition}
    (hs : r.Waiting s) (hopen : r.format.isOpener line = false)
    (ht : r.Steps s line t) : r.Waiting t.next := by
  cases hs with
  | scanning =>
      cases ht with
      | scan ht => exact ht.waiting hopen
  | marker =>
      cases ht with
      | opened h =>
          rw [hopen] at h
          cases h
      | unmarked _ ht =>
          have := ht.waiting hopen
          exact this

/-- Lines without an opener among them leave a search waiting: each of them
opens a block or lets go of what was held. -/
theorem waiting_of_no_opener {s : Search} (hs : r.Waiting s)
    {lines : List Text}
    (hopen : ∀ line ∈ lines, r.format.isOpener line = false) :
    r.Waiting (r.run s lines).2 := by
  induction lines generalizing s with
  | nil => exact hs
  | cons line lines ih =>
      rw [run_cons]
      refine ih ?_ fun l hl => hopen l (List.mem_cons_of_mem _ hl)
      exact (r.steps_step s line).waiting hs (hopen line
        (List.mem_cons_self ..))

-- ==================================================== reading the header

/-- An expected header whose lines are bare, whose opening line starts no
notice and the first line of whose body does. -/
structure Readable (r : Recognizer) : Prop where
  bare : ∀ line ∈ r.header.lines, line.IsBare
  opening : ∀ o, r.header.opening = some o → r.format.isOpener o = false
  first : r.format.isOpener (r.header.body.head r.header.body_ne_nil) = true

/-- A search that holds nothing takes up the opening line. -/
theorem step_of_opening_scanning {line opening : Text}
    (ho : r.header.opening = some opening) (hline : content line = opening) :
    r.step .scanning line = ⟨.marker [line], []⟩ := by
  simp [step, scan, isMarker_of_content_eq ho hline]

/-- A waiting search releases what it held for a new opening line. -/
private theorem step_of_opening {s : Search} (hs : r.Waiting s)
    {line opening : Text} (ho : r.header.opening = some opening)
    (hline : content line = opening) (hopen : r.format.isOpener line = false) :
    r.step s line = ⟨.marker [line], s.held.map .before⟩ := by
  cases hs with
  | scanning => exact step_of_opening_scanning ho hline
  | marker =>
      simp [step, release, scan, hopen, isMarker_of_content_eq ho hline,
        Search.held]

/-- The first line of the body, under the expected opening lines. -/
private theorem scan_of_first {held : List Text} {line : Text}
    (hheld : held.map content = r.header.opening.toList)
    (hline : content line = r.header.body.head r.header.body_ne_nil)
    (hopen : r.format.isOpener line = true) :
    r.scan held line
      = if r.header.body.length = 1 then
        ⟨.comparing 1, (held ++ [line]).map .header⟩ else ⟨.opener
        (held ++ [line]), []⟩ := by
  have hplain : (held.isEmpty && r.isMarker line) = false := by
    cases held with
    | nil =>
        -- nothing held: no opening line is expected, so none is looked for
        have hnone : r.header.opening = none := by
          cases ho : r.header.opening with
          | none => rfl
          | some opening => simp [ho] at hheld
        simp [isMarker, hnone]
    | cons => rfl
  have hfault : r.openingFault? held line = none := by
    unfold openingFault?
    cases ho : r.header.opening with
    | none => rfl
    | some opening =>
        rw [ho] at hheld
        obtain ⟨m, rfl, hm⟩ := List.map_eq_singleton_iff.1 hheld
        simp [hm]
  simp [scan, hplain, hopen, hfault, hline]

/-- The lines of the body from a place on. -/
theorem run_of_body {place : Nat} (hle : place ≤ r.header.body.length)
    {lines : List Text}
    (hlines : lines.map content = r.header.body.drop place) :
    r.run (.comparing place) lines
      = (lines.map .header, .comparing r.header.body.length) := by
  induction lines generalizing place with
  | nil =>
      have hge : r.header.body.length ≤ place :=
        List.drop_eq_nil_iff.1 hlines.symm
      rw [Nat.le_antisymm hle hge]
      rfl
  | cons line lines ih =>
      have hlt : place < r.header.body.length := by
        by_contra hge
        rw [List.drop_of_length_le (Nat.le_of_not_lt hge)] at hlines
        cases hlines
      rw [List.drop_eq_getElem_cons hlt, List.map_cons] at hlines
      obtain ⟨hline, hrest⟩ := List.cons.inj hlines
      have hstep : r.step (.comparing place) line
          = ⟨.comparing (place + 1), [.header line]⟩ := by
        simp [step, compare, Nat.not_le.2 hlt, List.getElem?_eq_getElem hlt,
          hline]
      rw [run_cons, hstep, ih hlt hrest]
      rfl

/-- After the whole body a terminator closes the header. -/
private theorem step_of_terminator {line : Text}
    (hterm : r.format.isTerminator line = true) :
    r.step (.comparing r.header.body.length) line
      = ⟨.matched, [.header line]⟩ := by
  simp [step, compare, hterm]

/-- The lines of the body under the expected opening lines, read from a
state that scans with these lines held. -/
theorem run_of_scan {s : Search} {held : List Text}
    (hscan : ∀ line, r.format.isOpener line = true →
      r.step s line = r.scan held line)
    (hheld : held.map content = r.header.opening.toList)
    (hfirst : r.format.isOpener (r.header.body.head r.header.body_ne_nil)
      = true) {lines : List Text}
    (hlines : lines.map content = r.header.body) :
    r.run s lines
      = ((held ++ lines).map .header, .comparing r.header.body.length) := by
  cases lines with
  | nil => exact absurd hlines.symm r.header.body_ne_nil
  | cons line more =>
      have hline : content line = r.header.body.head r.header.body_ne_nil := by
        simp [← hlines]
      have hopen : r.format.isOpener line = true := by
        rw [← CommentFormat.isOpener_content, hline]
        exact hfirst
      rw [run_cons, hscan line hopen, scan_of_first hheld hline hopen]
      have hlen : r.header.body.length = more.length + 1 := by
        rw [← hlines, List.length_map, List.length_cons]
      have hdrop : more.map content = r.header.body.drop 1 := by
        simp [← hlines]
      by_cases hone : r.header.body.length = 1
      · rw [if_pos hone, run_of_body (Nat.le_of_eq hone.symm) hdrop]
        simp
      · rw [if_neg hone]
        -- the second line is looked at by itself, before places are counted
        cases more with
        | nil => exact absurd hlen hone
        | cons second more =>
            have hsecond : r.header.body[1]? = some (content second) := by
              simp [← hlines]
            have hstep : r.step (.opener (held ++ [line])) second
                = ⟨.comparing 2,
                (held ++ [line] ++ [second]).map .header⟩ := by
              simp [step, Recognizer.second, hsecond]
            have hrest : more.map content = r.header.body.drop 2 := by
              simp [← hlines]
            rw [run_cons, hstep, run_of_body (by simp [hlen]) hrest]
            simp

/-- A waiting search that takes up the opening line, if one is expected,
lets go of what it held and reads the expected lines. -/
theorem run_of_lines {s : Search} (hs : r.Waiting s)
    (hopening : ∀ {line opening}, r.header.opening = some opening →
      content line = opening →
      r.step s line = ⟨.marker [line], s.held.map .before⟩)
    (hfirst : r.format.isOpener (r.header.body.head r.header.body_ne_nil)
      = true) {lines : List Text}
    (hlines : lines.map content = r.header.lines) :
    r.run s lines
      = (s.held.map .before ++ lines.map .header,
        .comparing r.header.body.length) := by
  cases ho : r.header.opening with
  | none =>
      -- the body comes at once; a held marker would need an opening line
      have hbody : lines.map content = r.header.body := by
        rw [hlines, Header.lines, ho]
        rfl
      cases hs with
      | marker hmark => simp [isMarker, ho] at hmark
      | scanning =>
          rw [run_of_scan (fun _ _ => rfl) (by rw [ho]; rfl) hfirst hbody]
          rfl
  | some opening =>
      -- the opening line takes the place of whatever was held
      rw [Header.lines, ho] at hlines
      obtain ⟨m, body, rfl, hm, hbody⟩ := List.map_eq_cons_iff.1 hlines
      have hscan : ∀ line, r.format.isOpener line = true →
          r.step (.marker [m]) line = r.scan [m] line := by
        intro line hopen
        simp [step, hopen]
      rw [run_cons, hopening ho hm,
        run_of_scan hscan (by rw [ho, List.map_singleton, hm]; rfl)
        hfirst hbody]
      rfl

/-- A terminator below the expected lines makes a match of them. -/
theorem run_concat_terminator {s : Search} {effects : List Effect}
    {lines : List Text}
    (hrun : r.run s lines
      = (effects ++ lines.map .header, .comparing r.header.body.length))
    {last : Text} (hterm : r.format.isTerminator last = true) :
    r.run s (lines ++ [last])
      = (effects ++ (lines ++ [last]).map .header, .matched) := by
  rw [run_concat, hrun, step_of_terminator hterm]
  simp

/-- A waiting search that comes upon the expected lines and a terminator
below them lets go of what it held and makes a match of them. -/
theorem run_accepted (hr : r.Readable) {s : Search} (hs : r.Waiting s)
    {lines : List Text} (hlines : lines.map content = r.header.lines)
    {last : Text} (hterm : r.format.isTerminator last = true) :
    r.run s (lines ++ [last])
      = (s.held.map .before ++ (lines ++ [last]).map .header, .matched) := by
  refine run_concat_terminator (run_of_lines hs ?_ hr.first hlines) hterm
  intro line opening ho hline
  refine step_of_opening hs ho hline ?_
  rw [← CommentFormat.isOpener_content, hline]
  exact hr.opening opening ho

/-- Behind a header that matched, all lines are after it. -/
theorem run_matched (lines : List Text) :
    r.run .matched lines = (lines.map .after, .matched) := by
  induction lines with
  | nil => rfl
  | cons line lines ih =>
      rw [run_cons, show r.step .matched line = ⟨.matched, [.after line]⟩
        from rfl, ih]
      rfl

theorem Waiting.verdict {s : Search} (h : r.Waiting s) :
    s.verdict = .missing := by
  cases h <;> rfl

/-- Lines that leave a search waiting, the expected lines with a terminator
below them, and any lines at all are the three regions of a match. -/
theorem run_around (hr : r.Readable) {front : List Text}
    (hwait : r.Waiting (r.run .scanning front).2) {lines : List Text}
    (hlines : lines.map content = r.header.lines) {last : Text}
    (hterm : r.format.isTerminator last = true) (behind : List Text) :
    r.run .scanning (front ++ (lines ++ [last]) ++ behind)
      = (front.map .before ++ (lines ++ [last]).map .header
        ++ behind.map .after, .matched) := by
  have hfront : (r.run .scanning front).1
      ++ (r.run .scanning front).2.held.map .before = front.map .before := by
    obtain ⟨ls, hls, hfront⟩ := run_eq_of_missing hwait.verdict
    rw [hls, ← List.map_append, hfront]
  rw [List.append_assoc, run_append, run_append,
    run_accepted hr hwait hlines hterm, run_matched]
  simp only [← List.append_assoc, hfront]

end Recognizer

end CopyrightNotice
