/-
Line ends do not count. Two texts whose lines have the same contents,
whatever ends the lines of each and whether anything ends the last, are
split at the same lines, with the same verdict and the same report.

The search itself is blind to line ends (`run_bare`): from lines with the
same contents it settles lines with the same contents, region by region
(`settled_congr`). What it does not see is which of them is the empty line
below a text, for a line with nothing in it but its line end has the same
content. So the regions are compared before that line is taken out, and
it is taken out of the same region of both (`length_regions_congr`).
-/
import CopyrightNotice.Proofs.Header.Content
import CopyrightNotice.Proofs.Header.Partition

namespace CopyrightNotice

open Text (content)

/-- What is settled, without line ends. -/
def Settled.bare (e : Settled) : Settled :=
  ⟨e.lines.map content, e.before.map content, e.header.map content,
    e.after.map content, e.mismatch⟩

theorem Settled.of_map_bare (effects : List Effect) :
    Settled.of (effects.map Effect.bare) = (Settled.of effects).bare := by
  induction effects with
  | nil => rfl
  | cons effect effects ih =>
      rw [List.map_cons]
      cases effect with
      | before line =>
          rw [Effect.bare, of_before_cons, ih, of_before_cons]; rfl
      | header line =>
          rw [Effect.bare, of_header_cons, ih, of_header_cons]; rfl
      | after line => rw [Effect.bare, of_after_cons, ih, of_after_cons]; rfl
      | mismatch m =>
          rw [Effect.bare, of_mismatch_cons, ih, of_mismatch_cons]; rfl

namespace Recognizer

variable {r : Recognizer}

/-- Runs over lines with the same contents settle the same, line ends
apart. -/
private theorem settled_congr {lines lines' : List Text}
    (h : lines.map content = lines'.map content) :
    (Settled.of (r.run .scanning lines).1).bare
      = (Settled.of (r.run .scanning lines').1).bare := by
  have hrun := r.run_bare .scanning lines
  have hrun' := r.run_bare .scanning lines'
  rw [h, hrun'] at hrun
  rw [← Settled.of_map_bare, ← Settled.of_map_bare]
  exact congrArg (fun run => Settled.of run.1) hrun.symm

variable {t t' : Text} {p p' : Regions}

/-- A file without a header has all its lines before one. -/
theorem length_regions_of_missing (h : r.parse t = .ok p)
    (hm : p.verdict = .missing) :
    p.before.length = (Text.lines t).length
      ∧ p.header.length = 0
      ∧ p.after.length = 0 := by
  have happend := congrArg List.length (append_regions r t)
  rw [← eq_regions_of_parse h, before_of_missing h hm] at happend
  simp only [List.length_append] at happend
  rw [before_of_missing h hm]
  omega

/-- Of a file with a header the search settles the regions and one line
more, behind the header or else at its end. -/
theorem length_settled_of_parse (h : r.parse t = .ok p)
    (hm : p.verdict ≠ .missing) :
    (Settled.of (r.run .scanning t.closedLines).1).before.length
        = p.before.length
      ∧ ((Settled.of (r.run .scanning t.closedLines).1).header.length
            = p.header.length
          ∧ (Settled.of (r.run .scanning t.closedLines).1).after.length
            = p.after.length + 1
        ∨ (Settled.of (r.run .scanning t.closedLines).1).header.length
            = p.header.length + 1
          ∧ (Settled.of (r.run .scanning t.closedLines).1).after.length = 0
          ∧ p.after.length = 0) := by
  obtain ⟨hbefore, ⟨hheader, hafter⟩ | ⟨hheader, hafter, hnil⟩⟩ :=
    settled_of_parse h hm
  · exact ⟨congrArg List.length hbefore,
      Or.inl ⟨congrArg List.length hheader, by simp [hafter]⟩⟩
  · exact ⟨congrArg List.length hbefore,
      Or.inr ⟨by simp [hheader], congrArg List.length hafter,
      congrArg List.length hnil⟩⟩

/-- Where the same is settled of two files with a header, line ends apart,
their regions have as many lines. -/
private theorem length_regions_congr (h : r.parse t = .ok p)
    (h' : r.parse t' = .ok p') (hm : p.verdict ≠ .missing)
    (hm' : p'.verdict ≠ .missing)
    (hsettled : (Settled.of (r.run .scanning t.closedLines).1).bare
      = (Settled.of (r.run .scanning t'.closedLines).1).bare) :
    p.before.length = p'.before.length
      ∧ p.header.length = p'.header.length
      ∧ p.after.length = p'.after.length := by
  have hbefore := congrArg (fun e : Settled => e.before.length) hsettled
  have hheader := congrArg (fun e : Settled => e.header.length) hsettled
  have hafter := congrArg (fun e : Settled => e.after.length) hsettled
  simp only [Settled.bare, List.length_map] at hbefore hheader hafter
  -- behind the header of one file the empty line is behind that of the other
  have hlengths := length_settled_of_parse h hm
  have hlengths' := length_settled_of_parse h' hm'
  omega

end Recognizer

-- ============================================================== result

/-- Texts with the same contents of lines get the same verdict and the same
report, and are split at the same lines. -/
theorem regions_of_same_contents (notice : Notice) (f : CommentFormat)
    {t t' : Text}
    (h : (Text.lines t).map content = (Text.lines t').map content) :
    ∃ p p', (Recognizer.ofNotice notice f).parse t = .ok p
      ∧ (Recognizer.ofNotice notice f).parse t' = .ok p'
      ∧ p.verdict = p'.verdict
      ∧ p.mismatch = p'.mismatch
      ∧ p.before.length = p'.before.length
      ∧ p.header.length = p'.header.length
      ∧ p.after.length = p'.after.length := by
  obtain ⟨p, hp⟩ : ∃ p, (Recognizer.ofNotice notice f).parse t = .ok p :=
    ⟨_, Recognizer.parse_eq _ t⟩
  obtain ⟨p', hp'⟩ : ∃ p, (Recognizer.ofNotice notice f).parse t' = .ok p :=
    ⟨_, Recognizer.parse_eq _ t'⟩
  have hclosed : t.closedLines.map content = t'.closedLines.map content := by
    simp only [Text.closedLines, List.map_append, h]
  have hverdict : p.verdict = p'.verdict := by
    rw [Recognizer.verdict_of_parse hp, Recognizer.verdict_of_parse hp']
    exact Recognizer.verdict_of_map_content _ hclosed
  have hsettled :=
    Recognizer.settled_congr (r := Recognizer.ofNotice notice f) hclosed
  refine ⟨p, p', hp, hp', hverdict, ?_, ?_⟩
  · rw [Recognizer.mismatch_of_parse hp, Recognizer.mismatch_of_parse hp']
    have hmismatch := congrArg Settled.mismatch hsettled
    exact hmismatch
  · -- without a header all lines are before it; with one, what is settled
    -- tells
    by_cases hm : p.verdict = .missing
    · obtain ⟨hbefore, hheader, hafter⟩ :=
        Recognizer.length_regions_of_missing hp hm
      obtain ⟨hbefore', hheader', hafter'⟩ :=
        Recognizer.length_regions_of_missing hp' (hverdict ▸ hm)
      have hlines := congrArg List.length h
      simp only [List.length_map] at hlines
      omega
    · exact Recognizer.length_regions_congr hp hp' hm (hverdict ▸ hm) hsettled

/-- A header in a file from elsewhere, with other line ends on every line and
none on the last. -/
theorem regions_of_script_from_elsewhere :
    ((Text.lines "#!/bin/sh\n\n# Copyright (c) A\n# B\n".toList).map content
      = (Text.lines "#!/bin/sh\r\n\r\r\n# Copyright (c) A\r\n# B".toList).map
      content) ∧ ((Recognizer.ofNotice
        ⟨["Copyright (c) A".toList], by simp, by decide, by decide⟩
        (CommentFormat.led "#")).regions
      "#!/bin/sh\n\n# Copyright (c) A\n# B\n".toList).header.length
        = ((Recognizer.ofNotice
        ⟨["Copyright (c) A".toList], by simp, by decide, by decide⟩
        (CommentFormat.led "#")).regions
      "#!/bin/sh\r\n\r\r\n# Copyright (c) A\r\n# B".toList).header.length := by
  have hsame :
      (Text.lines "#!/bin/sh\n\n# Copyright (c) A\n# B\n".toList).map content
        = (Text.lines
          "#!/bin/sh\r\n\r\r\n# Copyright (c) A\r\n# B".toList).map
            content := by
    decide +kernel
  obtain ⟨p, p', hp, hp', -, -, -, hheader, -⟩ := regions_of_same_contents
    ⟨["Copyright (c) A".toList], by simp, by decide, by decide⟩
    (CommentFormat.led "#") hsame
  rw [← Recognizer.eq_regions_of_parse hp,
    ← Recognizer.eq_regions_of_parse hp']
  exact ⟨hsame, hheader⟩

end CopyrightNotice
