/-
When a header is the expected one. The search spreads that over five
states; here it is one condition on the lines from the header on: they
begin with the expected lines, and a terminator stands below them.

A match has read exactly that (`Knows`). The other way round, a search
that is still comparing has read too few lines, and one that has gone
wrong has read a difference or no terminator, neither of which further
lines can mend.
-/
import CopyrightNotice.Proofs.Header.Agreement
import CopyrightNotice.Proofs.Header.Partition

namespace CopyrightNotice

open Text (content)

namespace Recognizer

variable {r : Recognizer}

/-- The lines begin with the expected ones, and a terminator stands below
them. -/
def Accepts (r : Recognizer) (found : List Text) : Prop :=
  ∃ last more, found = r.header.lines ++ last :: more
    ∧ r.format.isTerminator last = true

/-- Acceptance, with the terminator spelled out. -/
theorem accepts_iff {found : List Text}
    (hfound : ∀ line ∈ found, content line = line) :
    r.Accepts found
      ↔ r.header.lines <+: found
        ∧ ∃ entry, found[r.header.lines.length]? = some entry
          ∧ (entry = []
            ∨ r.format.closing <:+ entry
            ∨ entry = r.format.blankMarker) := by
  constructor
  · rintro ⟨last, more, rfl, hterm⟩
    refine ⟨List.prefix_append _ _, last, by simp, ?_⟩
    rwa [CommentFormat.isTerminator_iff, hfound last (by simp)] at hterm
  · rintro ⟨⟨tail, rfl⟩, entry, hentry, hterm⟩
    rw [List.getElem?_append_right (Nat.le_refl _), Nat.sub_self] at hentry
    cases tail with
    | nil => simp at hentry
    | cons last more =>
        obtain rfl : last = entry := by simpa using hentry
        refine ⟨last, more, rfl, ?_⟩
        rwa [CommentFormat.isTerminator_iff, hfound last (by simp)]

/-- A search that found a header matches exactly when the lines from there
on are accepted. -/
theorem matched_iff {lines : List Text}
    (hm : (r.run .scanning lines).2.verdict ≠ .missing) :
    (r.run .scanning lines).2 = .matched ↔
      r.Accepts (((Settled.of (r.run .scanning lines).1).header
        ++ (Settled.of (r.run .scanning lines).1).after).map content) := by
  have hknows := knows_run (r := r) lines
  have harr := arranged_run (r := r) lines
  generalize r.run .scanning lines = run at hm hknows harr
  obtain ⟨effects, s⟩ := run
  simp only at hm hknows harr ⊢
  constructor
  · rintro rfl
    obtain ⟨-, last, hheader, hterm⟩ := hknows
    exact ⟨content last,
      (Settled.of effects).after.map content, by simp [hheader],
      by simpa using hterm⟩
  · rintro ⟨last, more, hfound, hterm⟩
    have hprefix : r.header.lines
        <+: ((Settled.of effects).header ++ (Settled.of effects).after).map
        content :=
      ⟨last :: more, hfound.symm⟩
    cases s with
    | scanning | marker | opener => exact absurd rfl hm
    | comparing place =>
        -- too few lines read to have all expected ones and a terminator
        obtain ⟨hle, -, hheader⟩ := hknows
        have hlen := congrArg List.length hfound
        have hread := congrArg List.length hheader
        simp [harr.after rfl, Header.lines] at hlen hread
        omega
    | draining =>
        obtain ⟨x, y, hxy, -⟩ := hknows
        rw [harr.after rfl, List.append_nil] at hprefix
        exact absurd hprefix hxy.not_prefix
    | matched => rfl
    | differed =>
        -- a difference among the expected lines, or no terminator below them
        rcases hknows with ⟨x, y, hxy, -⟩ | ⟨-, last', more', hfound', hterm'⟩
        · exact absurd hprefix hxy.not_prefix
        · rw [hfound', List.append_cancel_left_eq] at hfound
          rw [← (List.cons.inj hfound).1, CommentFormat.isTerminator_content,
            hterm'] at hterm
          cases hterm

end Recognizer

namespace Regions

/-- The contents of the lines from the header on, and of the empty line
below the file. -/
def found (p : Regions) : List Text :=
  (p.header ++ p.after).map content ++ [[]]

private theorem content_of_mem_found {p : Regions} {line : Text}
    (h : line ∈ p.found) : content line = line := by
  rcases List.mem_append.1 h with h | h
  · obtain ⟨written, -, rfl⟩ := List.mem_map.1 h
    exact Text.content_content written
  · rw [List.mem_singleton.1 h, Text.content_nil]

end Regions

namespace Recognizer

variable {r : Recognizer} {t : Text} {p : Regions}

/-- The lines that the search assigns from the header on. -/
theorem found_of_parse (h : r.parse t = .ok p) (hm : p.verdict ≠ .missing) :
    ((Settled.of (r.run .scanning t.closedLines).1).header
      ++ (Settled.of (r.run .scanning t.closedLines).1).after).map content
      = p.found := by
  obtain ⟨-, ⟨hheader, hafter⟩ | ⟨hheader, hafter, hnil⟩⟩ :=
    settled_of_parse h hm
  · simp [Regions.found, hheader, hafter]
  · simp [Regions.found, hheader, hafter, hnil]

/-- The verdict on a header that is there is exact. -/
private theorem current_iff_accepts (h : r.parse t = .ok p)
    (hm : p.verdict ≠ .missing) :
    p.verdict = .current ↔ r.Accepts p.found := by
  rw [← found_of_parse h hm, ← matched_iff (verdict_of_parse h ▸ hm),
    verdict_of_parse h]
  exact Search.verdict_eq_current _

/-- The header of a current file: the expected lines and, unless the file
ends there, the terminator; nothing differs. -/
theorem header_of_current (h : r.parse t = .ok p) (hc : p.verdict = .current) :
    p.mismatch = none
    ∧ (p.header.map content = r.header.lines ∧ p.after = []
      ∨ ∃ last, p.header.map content = r.header.lines ++ [content last]
        ∧ r.format.isTerminator last = true) := by
  have hm : p.verdict ≠ .missing := by simp [hc]
  have hmatched : (r.run .scanning t.closedLines).2 = .matched := by
    rw [verdict_of_parse h] at hc
    exact (Search.verdict_eq_current _).1 hc
  have hknows := knows_run (r := r) t.closedLines
  rw [hmatched] at hknows
  obtain ⟨hmis, last, hheader, hterm⟩ := hknows
  constructor
  · rw [eq_regions_of_parse h]
    exact hmis
  · obtain ⟨-, ⟨hreal, -⟩ | ⟨hreal, -, hnil⟩⟩ := settled_of_parse h hm
    · rw [hreal] at hheader
      exact Or.inr ⟨last, hheader, hterm⟩
    · rw [hreal, List.map_append] at hheader
      exact Or.inl ⟨(List.append_inj' hheader rfl).1, hnil⟩

theorem lines_prefix_of_current (h : r.parse t = .ok p)
    (hc : p.verdict = .current) : r.header.lines <+: p.header.map content := by
  obtain ⟨-, ⟨hheader, -⟩ | ⟨last, hheader, -⟩⟩ := header_of_current h hc
  · exact hheader ▸ List.prefix_rfl
  · exact hheader ▸ List.prefix_append _ _

end Recognizer

-- ============================================================== result

/-- A header that is there is judged to be the expected one exactly when
the lines from its first on begin with the expected lines and the entry
below them is empty, ends with the closing marker or is the marker of an
empty line. It then consists of those lines, and of the terminator unless
that is the empty line below the file, and no difference is reported. -/
theorem verdict_eq_current_iff {notice : Notice} {f : CommentFormat} {t : Text}
    {p : Regions} (hp : (Recognizer.ofNotice notice f).parse t = .ok p)
    (hm : p.verdict ≠ .missing) :
    (p.verdict = .current ↔
      (notice.render f).lines <+: p.found
        ∧ ∃ entry, p.found[(notice.render f).lines.length]? = some entry
          ∧ (entry = [] ∨ f.closing <:+ entry ∨ entry = f.blankMarker))
    ∧ (p.verdict = .current → p.mismatch = none
      ∧ (p.header.map content = (notice.render f).lines ∧ p.after = []
        ∨ ∃ entry, p.header.map content = (notice.render f).lines ++ [entry]
          ∧ (entry = [] ∨ f.closing <:+ entry ∨ entry = f.blankMarker))) := by
  constructor
  · rw [Recognizer.current_iff_accepts hp hm,
      Recognizer.accepts_iff fun _ => Regions.content_of_mem_found]
    rfl
  · intro hc
    obtain ⟨hmis, hheader | ⟨last, hheader, hterm⟩⟩ :=
      Recognizer.header_of_current hp hc
    · exact ⟨hmis, Or.inl hheader⟩
    · exact ⟨hmis, Or.inr ⟨content last, hheader,
        (CommentFormat.isTerminator_iff _ _).1 hterm⟩⟩

/-- A style sheet with a blank line in its notice and rules below it. -/
theorem verdict_of_style_sheet :
    ((Recognizer.ofNotice
        ⟨["Copyright (c) A".toList, [], "B".toList], by simp, by decide,
          by decide⟩
        (CommentFormat.wrapped "/*" "*/")).regions
        "/* Copyright (c) A */\n\n/* B */\r\n/* top */\na {}".toList).verdict
      = .current :=
  (verdict_eq_current_iff (Recognizer.parse_eq _ _) (by decide +kernel)).1.2
    ⟨by decide +kernel, "/* top */".toList, by decide +kernel,
      Or.inr (Or.inl (by decide))⟩

end CopyrightNotice
