/-
What a rewrite leaves alone: everything but the header.

A stale header gives way to the block between the lines before and behind
it, which stay as they are. Where there was none, the block goes below
the longest run of lines on top that start as the format wants them to
stay there, and the text is kept around it. One line feed may be new: the
block needs one above it, and the last line of a file may lack its own.
That is the only line that can, so there is nothing below the block then
(`flatten_map_terminated`).
-/
import CopyrightNotice.Proofs.Header.Partition
import CopyrightNotice.Proofs.Text.Lines

namespace CopyrightNotice

-- ====================================================== leading runs

/-- The longest run of lines with a property that a list of lines begins
with. -/
structure LongestRun (P : Text → Prop) (run lines : List Text) : Prop where
  leads : run <+: lines
  all : ∀ line ∈ run, P line
  longest : ∀ other : List Text, other <+: lines → (∀ line ∈ other, P line) →
    other <+: run

/-- The lines taken while a test holds are the longest run of them. -/
theorem longestRun_takeWhile (p : Text → Bool) (lines : List Text) :
    LongestRun (fun line => p line = true) (lines.takeWhile p) lines where
  leads := List.takeWhile_prefix p
  all _ hl := List.mem_takeWhile_imp hl
  longest other hleads hall := by
    obtain ⟨rest, rfl⟩ := hleads
    rw [List.takeWhile_append_of_pos hall]
    exact List.prefix_append _ _

/-- A line that starts with the preamble of a format that has one. -/
def CommentFormat.StaysOnTop (f : CommentFormat) (line : Text) : Prop :=
  ∃ marker, f.preamble = some marker ∧ marker ≠ [] ∧ marker <+: line

/-- A line that stays on top, as a statement. -/
theorem CommentFormat.isPreamble_iff (f : CommentFormat) (line : Text) :
    f.isPreamble line = true ↔ f.StaysOnTop line := by
  unfold isPreamble StaysOnTop
  cases f.preamble with
  | none => simp
  | some marker => simp [leads]

-- ========================================================= line feeds

namespace Text

/-- A complete line is terminated already. -/
private theorem terminated_of_isComplete {line : Text} (h : IsComplete line) :
    terminated line = line := by
  obtain ⟨front, -, rfl⟩ := h
  exact if_pos List.getLast?_concat

/-- So are many of them. -/
theorem map_terminated_of_isComplete {ls : List Text}
    (h : ∀ line ∈ ls, IsComplete line) : ls.map terminated = ls :=
  calc ls.map terminated = ls.map id :=
        List.map_congr_left fun line hl => terminated_of_isComplete (h line hl)
    _ = ls := List.map_id _

/-- Giving the first lines of a text their line feeds changes them only if
they are all its lines and the last has none. -/
theorem flatten_map_terminated {t : Text} {kept rest : List Text}
    (h : lines t = kept ++ rest) :
    (∀ line, kept.getLast? = some line → line.getLast? = some '\n')
        ∧ (kept.map terminated).flatten = kept.flatten
      ∨ (∃ line, kept.getLast? = some line ∧ line.getLast? ≠ some '\n')
        ∧ (kept.map terminated).flatten = kept.flatten ++ ['\n']
        ∧ rest = [] := by
  rcases List.eq_nil_or_concat' kept with rfl | ⟨init, last, rfl⟩
  · exact Or.inl ⟨nofun, rfl⟩
  · -- only the last of the lines can lack a line feed
    have hinit : init.map terminated = init :=
      map_terminated_of_isComplete (@isComplete_of_lines t init (last :: rest)
        (by rw [h, List.append_assoc]; rfl) (List.cons_ne_nil _ _))
    have hmap : (init ++ [last]).map terminated
        = init ++ [terminated last] := by
      rw [List.map_append, hinit]
      rfl
    by_cases hlast : last.getLast? = some '\n'
    · refine Or.inl ⟨fun line hline => ?_, ?_⟩
      · rw [List.getLast?_concat] at hline
        rwa [← Option.some.inj hline]
      · rw [hmap, terminated, if_pos hlast]
    · refine Or.inr ⟨⟨last, List.getLast?_concat, hlast⟩, ?_, ?_⟩
      · rw [hmap, terminated, if_neg hlast]
        simp
      · -- with a line below it, the last line would be complete
        by_contra hrest
        obtain ⟨front, -, rfl⟩ := isComplete_of_lines h hrest last (by simp)
        exact hlast List.getLast?_concat

end Text

-- ========================================================= corrections

namespace Recognizer

variable {r : Recognizer} {t : Text} {p : Regions}

/-- The text around a stale header is the text but for the header. -/
private theorem flatten_regions (h : r.parse t = .ok p) :
    t = p.before.flatten ++ p.header.flatten ++ p.after.flatten := by
  rw [eq_regions_of_parse h, ← List.flatten_append, ← List.flatten_append,
    append_regions, Text.flatten_lines]

/-- Without a header, the block goes between the lines that stay on top,
each with its line feed, and the other lines of the text. -/
theorem correction?_of_missing (h : r.parse t = .ok p)
    (hm : p.verdict = .missing) :
    ∃ kept rest, Text.lines t = kept ++ rest
      ∧ LongestRun r.format.StaysOnTop kept (Text.lines t)
      ∧ r.correction? p
        = some ((kept.map Text.terminated).flatten ++ r.header.block
          ++ rest.flatten) := by
  have hbefore := before_of_missing h hm
  have hruns : (fun line => r.format.isPreamble line = true)
      = r.format.StaysOnTop :=
    funext fun line => propext (r.format.isPreamble_iff line)
  refine ⟨p.before.takeWhile r.format.isPreamble,
    p.before.dropWhile r.format.isPreamble, ?_, ?_, ?_⟩
  · rw [List.takeWhile_append_dropWhile, hbefore]
  · rw [← hruns, hbefore]
    exact longestRun_takeWhile _ _
  · rw [correction?, hm]

end Recognizer

-- ============================================================== result

/-- A rewrite puts the block in place of a stale header, or where there is
none below the lines that stay on top, and leaves the rest of the text as
it is. The one exception is a file all of whose lines stay on top: if the
last of them has no line feed, it gets one. -/
theorem correction_keeps_rest {notice : Notice} {f : CommentFormat} {t : Text}
    {p : Regions} (hp : (Recognizer.ofNotice notice f).parse t = .ok p)
    (hne : p.verdict ≠ .current) :
    ∃ front behind, (Recognizer.ofNotice notice f).correction? p
        = some (front ++ (notice.render f).block ++ behind)
      ∧ (p.verdict = .stale →
        front = p.before.flatten
          ∧ behind = p.after.flatten
          ∧ t = front ++ p.header.flatten ++ behind)
      ∧ (p.verdict = .missing → ∃ kept rest,
        Text.lines t = kept ++ rest
          ∧ LongestRun f.StaysOnTop kept (Text.lines t)
          ∧ behind = rest.flatten
          ∧ ((∀ line, kept.getLast? = some line → line.getLast? = some '\n')
              ∧ front = kept.flatten
              ∧ front ++ behind = t
            ∨ (∃ line, kept.getLast? = some line ∧ line.getLast? ≠ some '\n')
              ∧ front = kept.flatten ++ ['\n']
              ∧ kept.flatten = t
              ∧ behind = [])) := by
  cases hv : p.verdict with
  | current => exact absurd hv hne
  | stale =>
      refine ⟨p.before.flatten, p.after.flatten, ?_, fun _ =>
        ⟨rfl, rfl, ?_⟩, nofun⟩
      · rw [Recognizer.correction?, hv]
        rfl
      · exact Recognizer.flatten_regions hp
  | missing =>
      obtain ⟨kept, rest, hlines, hrun, hcorrection⟩ :=
        Recognizer.correction?_of_missing hp hv
      have htext : kept.flatten ++ rest.flatten = t := by
        rw [← List.flatten_append, ← hlines, Text.flatten_lines]
      refine ⟨_, _, hcorrection, nofun, fun _ => ⟨kept, rest, hlines,
        hrun, rfl, ?_⟩⟩
      -- only the last of the lines that stay can lack its line feed
      rcases Text.flatten_map_terminated hlines with
        ⟨hlast, hflatten⟩ | ⟨hlast, hflatten, rfl⟩
      · exact Or.inl ⟨hlast, hflatten, by rw [hflatten, htext]⟩
      · rw [List.flatten_nil, List.append_nil] at htext
        exact Or.inr ⟨hlast, hflatten, htext, rfl⟩

/-- An outdated header between a package clause's comment and the clause. -/
theorem correction_keeps_rest_of_package :
    ∃ front behind, (Recognizer.ofNotice
          ⟨["Copyright (c) 2024 A".toList], by simp, by decide, by decide⟩
          (CommentFormat.led "//")).correction?
        ((Recognizer.ofNotice
          ⟨["Copyright (c) 2024 A".toList], by simp, by decide, by decide⟩
          (CommentFormat.led "//")).regions
          "// Package a.\n// Copyright (c) 2019 A\n// MIT\n\npackage a".toList)
        = some (front ++ "// Copyright (c) 2024 A\n\n".toList ++ behind)
      ∧ "// Package a.\n// Copyright (c) 2019 A\n// MIT\n\npackage a".toList
        = front ++ "// Copyright (c) 2019 A\n// MIT\n\n".toList ++ behind := by
  obtain ⟨front, behind, hcorrection, hstale, -⟩ := @correction_keeps_rest
    ⟨["Copyright (c) 2024 A".toList], by simp, by decide, by decide⟩
    (CommentFormat.led "//") _ _
    (Recognizer.parse_eq _
      "// Package a.\n// Copyright (c) 2019 A\n// MIT\n\npackage a".toList)
    (by decide +kernel)
  obtain ⟨-, -, htext⟩ := hstale (by decide +kernel)
  have hheader : List.flatten (Regions.header ((Recognizer.ofNotice
      ⟨["Copyright (c) 2024 A".toList], by simp, by decide, by decide⟩
      (CommentFormat.led "//")).regions
        "// Package a.\n// Copyright (c) 2019 A\n// MIT\n\npackage a".toList))
      = "// Copyright (c) 2019 A\n// MIT\n\n".toList := by decide +kernel
  rw [hheader] at htext
  exact ⟨front, behind, hcorrection, htext⟩

end CopyrightNotice
