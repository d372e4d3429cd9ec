/-
The difference that is reported.

A stale header is reported with the first line in which it differs from
the expected one. Four steps of the search report a difference, each
with a line and an expectation of its own choice, and only the first
report counts. Here they are one rule on the lines from the header on
and the empty line below the file: where these first differ from the
expected lines, the two entries are reported (`mismatch_of_stale`).

Not every stale header has a difference. It may end too early, or a line
stands below it that may not stand there; then one of the lists begins
with the other, and nothing is reported.
-/
import CopyrightNotice.Proofs.Header.Extent

namespace CopyrightNotice

private theorem FirstDifference.differsAt {found expected : List Text}
    {x y : Text} (h : FirstDifference found expected x y) :
    ∃ place, DiffersAt found expected place
      ∧ found[place]? = some x
      ∧ expected[place]? = some y := by
  obtain ⟨common, more, rest, rfl, rfl, hne⟩ := h
  exact ⟨common.length,
    ⟨common, x, y, more, rest, rfl, rfl, hne, rfl⟩, by simp, by simp⟩

namespace Recognizer

variable {r : Recognizer} {t : Text} {p : Regions}

/-- The report on a stale header: its first difference from the expected
lines or, if it has none, nothing. -/
private theorem mismatch_of_stale (h : r.parse t = .ok p)
    (hs : p.verdict = .stale) :
    (∃ x y, FirstDifference p.found r.header.lines x y
        ∧ p.mismatch = some ⟨Text.trim x, Text.trim y⟩)
      ∨ ((p.found <+: r.header.lines ∨ r.header.lines <+: p.found)
        ∧ p.mismatch = none) := by
  have hfound := found_of_parse h (by simp [hs])
  rw [verdict_of_parse h] at hs
  rw [mismatch_of_parse h, ← hfound]
  have hknows := knows_run (r := r) t.closedLines
  have harr := arranged_run (r := r) t.closedLines
  generalize r.run .scanning t.closedLines = run at hs hknows harr ⊢
  obtain ⟨effects, s⟩ := run
  simp only at hs hknows harr ⊢
  cases s with
  | scanning | marker | opener | matched => cases hs
  | comparing place =>
      -- the header ends too early
      obtain ⟨-, hmis, hheader⟩ := hknows
      rw [harr.after rfl, List.append_nil, hheader]
      refine Or.inr ⟨Or.inl ?_, hmis⟩
      exact (List.prefix_append_right_inj _).2 (List.take_prefix _ _)
  | draining =>
      obtain ⟨x, y, hxy, hmis⟩ := hknows
      rw [harr.after rfl, List.append_nil]
      exact Or.inl ⟨x, y, hxy, hmis⟩
  | differed =>
      rcases hknows with ⟨x, y, hxy, hmis⟩ | ⟨hmis, last, more, hlines, -⟩
      · exact Or.inl ⟨x, y, hxy, hmis⟩
      · -- all expected lines, and one below them that may not stand there
        refine Or.inr ⟨Or.inr ?_, hmis⟩
        rw [hlines]
        exact List.prefix_append _ _

/-- Nothing is reported of a file without a header. -/
private theorem mismatch_of_missing (h : r.parse t = .ok p)
    (hm : p.verdict = .missing) : p.mismatch = none := by
  have harr := arranged_run (r := r) t.closedLines
  rw [verdict_of_parse h] at hm
  rw [mismatch_of_parse h]
  exact (harr.missing hm).2.2

end Recognizer

-- ============================================================== result

/-- A difference is reported of stale headers only: of those whose lines,
down to the empty line below the file, differ somewhere from the expected
ones. It is then what stands and what should stand at the first such
place, without the blanks around it. -/
theorem mismatch_is_first_difference (notice : Notice) (f : CommentFormat)
    (t : Text) :
    ∃ p, (Recognizer.ofNotice notice f).parse t = .ok p
      ∧ (p.verdict = .current ∨ p.verdict = .missing → p.mismatch = none)
      ∧ (p.verdict = .stale →
        (p.mismatch ≠ none
            ↔ ∃ place, DiffersAt p.found (notice.render f).lines place)
          ∧ ∀ place, DiffersAt p.found (notice.render f).lines place →
            ∃ x y, p.found[place]? = some x
              ∧ (notice.render f).lines[place]? = some y
              ∧ p.mismatch = some ⟨Text.trim x, Text.trim y⟩) := by
  obtain ⟨p, hp⟩ : ∃ p, (Recognizer.ofNotice notice f).parse t = .ok p :=
    ⟨_, Recognizer.parse_eq _ t⟩
  refine ⟨p, hp, ?_, fun hs => ?_⟩
  · rintro (hc | hm)
    · exact (Recognizer.header_of_current hp hc).1
    · exact Recognizer.mismatch_of_missing hp hm
  · rcases Recognizer.mismatch_of_stale hp hs with ⟨x, y, hxy, hmis⟩
      | ⟨hstarts, hmis⟩
    · -- there is one first difference, and it is the one reported
      obtain ⟨place, hdiffers, hx, hy⟩ := hxy.differsAt
      refine ⟨⟨fun _ => ⟨place, hdiffers⟩, fun _ => by simp [hmis]⟩, ?_⟩
      intro place' hdiffers'
      obtain rfl := hdiffers.unique hdiffers'
      exact ⟨x, y, hx, hy, hmis⟩
    · have hnone : ∀ place, ¬ DiffersAt p.found
          (notice.render f).lines place := by
        intro place hdiffers
        rcases hstarts with hstarts | hstarts
        · exact hdiffers.not_prefix hstarts
        · exact hdiffers.not_prefix' hstarts
      refine ⟨⟨fun hsome => absurd hmis hsome, ?_⟩, ?_⟩
      · rintro ⟨place, hdiffers⟩
        exact absurd hdiffers (hnone place)
      · intro place hdiffers
        exact absurd hdiffers (hnone place)

/-- A banner of another width is the difference, and not the notice's
year below it. -/
theorem mismatch_is_first_difference_under_banner :
    ((Recognizer.ofNotice
        ⟨["Copyright (c) 2024 A".toList], by simp, by decide, by decide⟩
        (CommentFormat.banner '#' "#")).regions
      "####\r\n# Copyright (c) 2019 A\n".toList).mismatch
      = some ⟨"####".toList, List.replicate 80 '#'⟩ := by
  obtain ⟨p, hp, -, hstale⟩ := mismatch_is_first_difference
    ⟨["Copyright (c) 2024 A".toList], by simp, by decide, by decide⟩
    (CommentFormat.banner '#' "#") "####\r\n# Copyright (c) 2019 A\n".toList
  obtain rfl := Recognizer.eq_regions_of_parse hp
  obtain ⟨x, y, hx, hy, hmismatch⟩ := (hstale (by decide +kernel)).2 0
    ⟨[], "####".toList, List.replicate 80 '#',
      ["# Copyright (c) 2019 A".toList, []],
      ["# Copyright (c) 2024 A".toList], by decide +kernel, by decide +kernel,
      by decide, rfl⟩
  obtain rfl : "####".toList = x :=
    Option.some.inj (.trans (by decide +kernel) hx)
  obtain rfl : List.replicate 80 '#' = y :=
    Option.some.inj (.trans (by decide +kernel) hy)
  rw [hmismatch]
  decide +kernel

end CopyrightNotice
