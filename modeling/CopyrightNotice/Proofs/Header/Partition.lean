/-
The split of a text at its header is a partition: every text has one,
and its regions, one behind the other, are the lines of the text.

# From runs to regions

A run settles the lines of the text and the empty line below them, in
order (`arranged_run`, `run_conserves`). No line of a text is empty, so
filtering the empty line out of the regions takes nothing else with it
(`append_regions`), and the count that `Recognizer.parse` checks agrees
(`parse_eq`).

# What steps take for granted

A scan with held lines expects an opener, a look at the second line
expects a notice that has one. `StepSafe` says both, and comes down to
the second (`stepSafe_iff_ready`): every step leaves a state behind that
holds the first line of a notice only where there is a second one
(`Steps.ready`), so from every state that a run reaches, all further
steps are safe (`runSafe_of_reached`).
-/
import CopyrightNotice.Proofs.Header.Settled
import Mathlib.Data.List.Basic

namespace CopyrightNotice

-- ============================================================= regions

namespace Text

/-- No line of a text is empty, with its end. -/
private theorem filter_lines (t : Text) :
    (lines t).filter (fun line : Text => !line.isEmpty) = lines t := by
  refine List.filter_eq_self.2 fun line hl => ?_
  simpa using ne_nil_of_mem_lines hl

/-- The empty line below a text is its only empty line. -/
private theorem filter_closedLines (t : Text) :
    t.closedLines.filter (fun line : Text => !line.isEmpty) = lines t := by
  rw [closedLines, List.filter_append, filter_lines]
  simp

end Text

namespace Recognizer

variable {r : Recognizer} {t : Text} {p : Regions}

/-- The regions that the run over a text settles. -/
def regions (r : Recognizer) (t : Text) : Regions :=
  Regions.ofRun (r.run .scanning t.closedLines).1
    (r.run .scanning t.closedLines).2

/-- The regions, in order, are the lines of the text. -/
theorem append_regions (r : Recognizer) (t : Text) :
    (r.regions t).before ++ (r.regions t).header ++ (r.regions t).after
      = Text.lines t := by
  unfold regions
  generalize hrun : r.run .scanning t.closedLines = run
  obtain ⟨effects, last⟩ := run
  have harr : Arranged effects last := by
    have := arranged_run (r := r) t.closedLines
    rwa [hrun] at this
  have hcons : (Settled.of effects).lines ++ last.held = t.closedLines := by
    have := run_conserves (r := r) .scanning t.closedLines
    rw [hrun] at this
    simpa [Search.held] using this
  rw [harr.orderly] at hcons
  -- held lines come in front of the header: where there are any, there is none
  have hheld : (Settled.of effects).before ++ last.held
      ++ (Settled.of effects).header ++ (Settled.of effects).after
      = t.closedLines := by
    by_cases hm : last.verdict = .missing
    · obtain ⟨hheader, hafter, -⟩ := harr.missing hm
      simpa [hheader, hafter] using hcons
    · simpa [Search.held_eq_nil hm] using hcons
  rw [← Text.filter_closedLines t, ← hheld, List.filter_append,
    List.filter_append]
  rfl

/-- The parse never fails: what it takes for granted is so. -/
theorem parse_eq (r : Recognizer) (t : Text) :
    r.parse t = .ok (r.regions t) := by
  have hlen := congrArg List.length (append_regions r t)
  rw [List.length_append, List.length_append] at hlen
  exact if_pos hlen

/-- What is parsed is the regions of the run. -/
theorem eq_regions_of_parse (h : r.parse t = .ok p) : p = r.regions t := by
  rw [parse_eq] at h
  exact (Except.ok.inj h).symm

/-- The verdict is that of the state at the end. -/
theorem verdict_of_parse (h : r.parse t = .ok p) :
    p.verdict = (r.run .scanning t.closedLines).2.verdict := by
  rw [eq_regions_of_parse h]
  rfl

/-- The mismatch is the last that the run reports. -/
theorem mismatch_of_parse (h : r.parse t = .ok p) :
    p.mismatch = (Settled.of (r.run .scanning t.closedLines).1).mismatch := by
  rw [eq_regions_of_parse h]
  rfl

/-- A search that has found a header and does not end in a match has found a
stale one. -/
theorem stale_of_found (h : r.parse t = .ok p)
    (hm : (r.run .scanning t.closedLines).2.verdict ≠ .missing)
    (hmatched : (r.run .scanning t.closedLines).2 ≠ .matched) :
    p.verdict = .stale := by
  rw [verdict_of_parse h]
  exact Verdict.eq_stale hm fun hc =>
    hmatched ((Search.verdict_eq_current _).1 hc)

/-- Without a header all lines are before one. -/
theorem before_of_missing (h : r.parse t = .ok p) (hm : p.verdict = .missing) :
    p.before = Text.lines t := by
  have happend := append_regions r t
  have harr := arranged_run (r := r) t.closedLines
  rw [eq_regions_of_parse h] at hm ⊢
  obtain ⟨hheader, hafter, -⟩ := harr.missing hm
  have hheader' : (r.regions t).header = [] := congrArg (List.filter _) hheader
  have hafter' : (r.regions t).after = [] := congrArg (List.filter _) hafter
  simpa [hheader', hafter'] using happend

/-- Taking the only empty line off the end of three stretches of lines
leaves the first alone, and the third or else the second shorter. -/
private theorem filter_of_append_nil {before header after real : List Text}
    (hreal : ∀ line ∈ real, line ≠ [])
    (h : before ++ header ++ after = real ++ [[]]) (hne : header ≠ []) :
    before.filter (fun line : Text => !line.isEmpty) = before
    ∧ (header = header.filter (fun line : Text => !line.isEmpty)
        ∧ after = after.filter (fun line : Text => !line.isEmpty) ++ [[]]
      ∨ header = header.filter (fun line : Text => !line.isEmpty) ++ [[]]
        ∧ after = []) := by
  have keep : ∀ {ls : List Text}, ls ⊆ real →
      ls.filter (fun line : Text => !line.isEmpty) = ls := by
    intro ls hls
    refine List.filter_eq_self.2 fun line hl => ?_
    simpa using hreal line (hls hl)
  rcases List.eq_nil_or_concat' after with rfl | ⟨init, last, rfl⟩
  · -- the empty line ends the header
    obtain ⟨init, last, rfl⟩ :=
      (List.eq_nil_or_concat' header).resolve_left hne
    rw [List.append_nil, ← List.append_assoc] at h
    obtain ⟨rfl, hlast⟩ := List.append_inj' h rfl
    obtain rfl : last = [] := by simpa using hlast
    refine ⟨keep (List.subset_append_left ..), Or.inr ⟨?_, rfl⟩⟩
    rw [List.filter_append, keep (List.subset_append_right ..)]
    simp
  · -- the empty line is the last behind the header
    rw [← List.append_assoc] at h
    obtain ⟨rfl, hlast⟩ := List.append_inj' h rfl
    obtain rfl : last = [] := by simpa using hlast
    refine ⟨keep ?_, Or.inl ⟨(keep ?_).symm, ?_⟩⟩
    · rw [List.append_assoc]
      exact List.subset_append_left ..
    · intro line hl
      simp [hl]
    · rw [List.filter_append, keep (List.subset_append_right ..)]
      simp

/-- With a header the run settles the regions and, in the last of the
regions that it has come to, the empty line below the text. -/
theorem settled_of_parse (h : r.parse t = .ok p) (hm : p.verdict ≠ .missing) :
    (Settled.of (r.run .scanning t.closedLines).1).before = p.before
      ∧ ((Settled.of (r.run .scanning t.closedLines).1).header = p.header
          ∧ (Settled.of (r.run .scanning t.closedLines).1).after
            = p.after ++ [[]]
        ∨ (Settled.of (r.run .scanning t.closedLines).1).header
            = p.header ++ [[]]
          ∧ (Settled.of (r.run .scanning t.closedLines).1).after = []
          ∧ p.after = []) := by
  rw [eq_regions_of_parse h] at hm ⊢
  have harr := arranged_run (r := r) t.closedLines
  have hheld := Search.held_eq_nil (s := (r.run .scanning t.closedLines).2) hm
  have hall := @append_settled r t.closedLines hm
  obtain ⟨hbefore, hrest⟩ := filter_of_append_nil
    (fun line => Text.ne_nil_of_mem_lines) hall (harr.found hm)
  constructor
  · rw [← hbefore]
    simp [regions, Regions.ofRun, hheld, Settled.of]
  · rcases hrest with ⟨hheader, hafter⟩ | ⟨hheader, hafter⟩
    · exact Or.inl ⟨hheader, hafter⟩
    · exact Or.inr ⟨hheader, hafter, congrArg (List.filter _) hafter⟩

-- ========================================================= assumptions

/-- What a scan takes for granted: under held lines stands an opener, and
an opener has a first line of the body to be compared with. -/
def ScanSafe (r : Recognizer) (held : List Text) (line : Text) : Prop :=
  (held.isEmpty && r.isMarker line) = true
    ∨ if r.format.isOpener line then 0 < r.header.body.length else held = []

/-- What a step takes for granted: its scan, if it makes one, and a second
line of the body where the first has been seen. -/
def StepSafe (r : Recognizer) : Search → Text → Prop
  | .scanning, line => r.ScanSafe [] line
  | .marker held, line =>
    if r.format.isOpener line then r.ScanSafe held line else r.ScanSafe [] line
  | .opener _, line =>
    2 ≤ r.header.body.length
      ∧ (r.header.body[1]? ≠ some (Text.content line) →
          r.format.isContinuation line = false → r.ScanSafe [] line)
  | _, _ => True

/-- No step over the lines takes anything for granted that is not so. -/
def RunSafe (r : Recognizer) : Search → List Text → Prop
  | _, [] => True
  | s, line :: more => r.StepSafe s line ∧ r.RunSafe (r.step s line).next more

theorem length_body_pos (r : Recognizer) : 0 < r.header.body.length :=
  List.length_pos_iff.2 r.header.body_ne_nil

theorem scanSafe_nil (r : Recognizer) (line : Text) : r.ScanSafe [] line := by
  right
  split
  · exact r.length_body_pos
  · rfl

/-- What a state takes for granted: the first line of a notice is held only
where a second one is due. -/
def Ready (r : Recognizer) : Search → Prop
  | .opener _ => 2 ≤ r.header.body.length
  | _ => True

/-- A step takes nothing for granted that its state does not. -/
theorem stepSafe_iff_ready (s : Search) (line : Text) :
    r.StepSafe s line ↔ r.Ready s := by
  cases s with
  | scanning => exact iff_of_true (r.scanSafe_nil line) trivial
  | marker held =>
      refine iff_of_true ?_ trivial
      simp only [StepSafe]
      split
      · rename_i hopen
        right
        rw [if_pos hopen]
        exact r.length_body_pos
      · exact r.scanSafe_nil line
  | opener held => exact and_iff_left fun _ _ => r.scanSafe_nil line
  | comparing | draining | matched | differed => exact Iff.rfl

/-- After a scan no more is held than is due. -/
theorem Scans.ready {held : List Text} {line : Text} {t : Transition}
    (h : r.Scans held line t) : r.Ready t.next := by
  cases h with
  | first _ _ _ _ hlen =>
      have := r.length_body_pos
      simp only [Ready]
      omega
  | _ => trivial

/-- The state behind a step is ready, whatever the state before. -/
theorem Steps.ready {s : Search} {line : Text} {t : Transition}
    (h : r.Steps s line t) : r.Ready t.next := by
  cases h with
  | scan ht | opened _ ht | unmarked _ ht | unopened _ _ ht => exact ht.ready
  | disagreed _ _ ht | drain ht => cases ht <;> trivial
  | _ => trivial

/-- What a state takes for granted is so along a run. -/
theorem ready_run {s : Search} (h : r.Ready s) (lines : List Text) :
    r.Ready (r.run s lines).2 :=
  run_induction (P := fun _ _ s => r.Ready s) h (fun _ ht => ht.ready) lines

/-- So no step of a run from such a state fails. -/
theorem runSafe_of_ready {s : Search} (h : r.Ready s) (lines : List Text) :
    r.RunSafe s lines := by
  induction lines generalizing s with
  | nil => trivial
  | cons line more ih =>
      exact ⟨(stepSafe_iff_ready s line).2 h, ih (r.steps_step s line).ready⟩

/-- From every state that a run has reached, the rest of it is safe. -/
private theorem runSafe_of_reached (r : Recognizer) (seen rest : List Text) :
    r.RunSafe (r.run .scanning seen).2 rest :=
  runSafe_of_ready (ready_run (s := .scanning) trivial seen) rest

end Recognizer

-- ============================================================== result

/-- Every text is split at its header, by every notice in every format:
the regions in order are the lines of the text, put together they are
the text, and no step of the search relies on a line that is not
there. -/
theorem parse_partitions (notice : Notice) (f : CommentFormat) (t : Text) :
    (∃ p, (Recognizer.ofNotice notice f).parse t = .ok p
      ∧ p.before ++ p.header ++ p.after = Text.lines t
      ∧ (p.before ++ p.header ++ p.after).flatten = t)
    ∧ (Recognizer.ofNotice notice f).RunSafe .scanning t.closedLines := by
  constructor
  · refine ⟨_, Recognizer.parse_eq _ t, Recognizer.append_regions _ t, ?_⟩
    rw [Recognizer.append_regions]
    exact Text.flatten_lines t
  · exact Recognizer.runSafe_of_reached _ [] t.closedLines

end CopyrightNotice
