/-
Which lines of a file a stale header has.

# From the search to the file

The header begins with the opener, which is a line of the file
(`headed_of_parse`). `Extent` tells how far the search for its end gets
over the lines of the file and the empty line below them. That line would
end any header, and so is the last one taken or is left below; without it
the same lines of the file are in reach (`drop_reach_of_empty_line`).

# No difference

A stale header may agree with the expected lines as far as both go: the
file ends too early, or the line below the expected ones is none that may
stand there. It then has the expected lines and no other
(`header_of_no_difference`).
-/
import CopyrightNotice.Proofs.Header.Extent
import CopyrightNotice.Proofs.Header.Frame
import CopyrightNotice.Proofs.Header.Opening

namespace CopyrightNotice

open Text (content)

-- =============================================================== reach

namespace CommentFormat

variable {f : CommentFormat}

/-- A line that ends a stale header: it is empty or closes the comment. -/
def Ends (f : CommentFormat) (line : Text) : Prop :=
  content line = [] ∨ f.closing ≠ [] ∧ f.closing <:+ content line

theorem isEnd_iff (line : Text) : f.isEnd line = true ↔ f.Ends line := by
  simp [isEnd, Ends, closes]

theorem isInner_iff (line : Text) :
    f.isInner line = true ↔ ¬ f.Ends line ∧ f.isContinuation line = true := by
  rw [← isEnd_iff, isInner]
  simp

/-- The inner lines in front are in reach, and behind them what is in reach
from there. -/
private theorem reach_eq (f : CommentFormat) (lines : List Text) :
    f.reach lines
      = (lines.takeWhile f.isInner).length
        + f.reach (lines.dropWhile f.isInner) := by
  have hinner : ∀ line ∈ lines.takeWhile f.isInner, f.isInner line = true :=
    fun _ hl => List.mem_takeWhile_imp hl
  rw [← reach_of_inner hinner, List.takeWhile_append_dropWhile]

/-- Lines that begin with no inner line: the first is in reach if it ends the
header, and otherwise none is. -/
private theorem last_of_reach {lines : List Text}
    (h : ∀ line ∈ lines.head?, f.isInner line = false) :
    (∃ line, lines.take (f.reach lines) = [line] ∧ f.Ends line)
      ∨ lines.take (f.reach lines) = []
        ∧ ∀ next, (lines.drop (f.reach lines)).head? = some next →
          ¬ f.Ends next := by
  cases lines with
  | nil => exact Or.inr ⟨rfl, nofun⟩
  | cons line more =>
      by_cases hend : f.isEnd line = true
      · refine Or.inl ⟨line, ?_, (isEnd_iff line).1 hend⟩
        rw [reach_of_isEnd hend]
        rfl
      · have hcont : f.isContinuation line = false := by
          simpa [isInner, hend] using h line rfl
        rw [reach_of_left (Bool.eq_false_iff.2 hend) hcont]
        refine Or.inr ⟨rfl, fun next hnext => ?_⟩
        rw [← Option.some.inj hnext, ← isEnd_iff]
        exact hend

/-- What a stale header takes of the lines: those that carry the comment on
and do not end it, as long as they last, and the next one if that ends it. -/
private theorem exists_of_reach (lines : List Text) :
    ∃ inner last, lines.take (f.reach lines) = inner ++ last
      ∧ LongestRun (fun line => ¬ f.Ends line ∧ f.isContinuation line = true)
        inner lines
      ∧ ((∃ line, last = [line] ∧ f.Ends line) ∨ last = [] ∧ ∀ next,
        (lines.drop (f.reach lines)).head? = some next → ¬ f.Ends next) := by
  have hrun := longestRun_takeWhile f.isInner lines
  simp only [isInner_iff] at hrun
  have hfirst : ∀ line ∈ (lines.dropWhile f.isInner).head?, f.isInner line
      = false := by
    intro line hline
    have hhead := List.head?_dropWhile_not f.isInner lines
    rw [Option.mem_def.1 hline] at hhead
    exact hhead
  have hlast := last_of_reach hfirst
  have hlines := List.takeWhile_append_dropWhile (p := f.isInner) (l := lines)
  have hreach := f.reach_eq lines
  generalize lines.takeWhile f.isInner = inner at hrun hlines hreach
  generalize lines.dropWhile f.isInner = rest at hlast hlines hreach
  refine ⟨inner, rest.take (f.reach rest), ?_, hrun, ?_⟩
  · rw [hreach, ← hlines, List.take_length_add_append]
  · rwa [hreach, ← hlines, List.drop_length_add_append]

/-- What is out of reach of some lines is out of reach of them with an empty
line below, which then is below the header or ends it. -/
private theorem drop_reach_of_empty_line {after real rest : List Text}
    (hsplit : after = real ++ [[]] ∨ after = [] ∧ real = [])
    (hafter : after = (rest ++ [[]]).drop (f.reach (rest ++ [[]]))) :
    real = rest.drop (f.reach rest) := by
  by_cases hinner : ∀ line ∈ rest, f.isInner line = true
  · -- every line is in the header, and so is the empty one
    have hall := reach_of_inner hinner []
    have hclosed := reach_of_inner hinner [[]]
    rw [List.append_nil, reach, Nat.add_zero] at hall
    rw [reach_of_isEnd rfl] at hclosed
    rw [hall, List.drop_length]
    rcases hsplit with hreal | ⟨-, hreal⟩
    · rw [hclosed, hreal] at hafter
      have hlen := congrArg List.length hafter
      simp at hlen
    · exact hreal
  · push Not at hinner
    obtain ⟨line, hl, hleft⟩ := hinner
    rw [reach_append ⟨line, hl, Bool.eq_false_iff.2 hleft⟩,
      List.drop_append_of_le_length (reach_le_length rest)] at hafter
    rcases hsplit with hreal | ⟨hnil, -⟩
    · exact List.append_cancel_right (hreal.symm.trans hafter)
    · rw [hnil] at hafter
      simp at hafter

end CommentFormat

namespace Recognizer

variable {r : Recognizer}

-- ============================================================== opener

/-- An opener stands at the place for it, below the opening line or on
top. -/
def Headed (r : Recognizer) (lines : List Text) : Prop :=
  ∃ line, lines[r.openerPlace lines]? = some line
    ∧ r.format.isOpener line = true

theorem Headed.ne_nil {lines : List Text} (h : r.Headed lines) :
    lines ≠ [] := by
  rintro rfl
  obtain ⟨line, hline, -⟩ := h
  cases hline

theorem Headed.append {lines : List Text} (h : r.Headed lines)
    (new : List Text) : r.Headed (lines ++ new) := by
  obtain ⟨line, hline, hopen⟩ := id h
  refine ⟨line, ?_, hopen⟩
  rw [openerPlace_append h.ne_nil]
  exact (List.getElem?_append_left (List.getElem?_eq_some_iff.1 hline).1).trans
    hline

/-- An opener below what is held stands in its place. -/
theorem headed_of_held {held : List Text} {line : Text} (hheld : r.Held held)
    (hplain : (held.isEmpty && r.isMarker line) = false)
    (hopen : r.format.isOpener line = true) : r.Headed (held ++ [line]) :=
  ⟨line, by simp [openerPlace_of_held hheld hplain], hopen⟩

/-- What a state says of where the opener is. -/
def Places (r : Recognizer) (header : List Text) : Search → Prop
  | .scanning | .marker _ => True
  | .opener held => r.Headed held
  | .comparing _ | .draining | .matched | .differed => r.Headed header

/-- Once there is a header, its state says where the opener is. -/
theorem places_iff_headed {header : List Text} {s : Search}
    (hs : s.verdict ≠ .missing) : r.Places header s ↔ r.Headed header := by
  cases s with
  | scanning | marker | opener => exact absurd rfl hs
  | comparing | draining | matched | differed => exact Iff.rfl

/-- A scanned line that opens a header does so in its place. -/
theorem Scans.places {held : List Text} {line : Text} {t : Transition}
    (hheld : r.Held held) (ht : r.Scans held line t) :
    r.Places (Settled.of t.effects).header t.next := by
  cases ht with
  | marker | text => trivial
  | misplaced hplain hopen | unlike hplain hopen | whole hplain hopen =>
      simpa [Places, mismatchAt] using headed_of_held hheld hplain hopen
  | first hplain hopen => exact headed_of_held hheld hplain hopen

/-- A step does not move the opener. -/
private theorem places_step {effects : List Effect} {s : Search} {line : Text}
    {t : Transition} (harr : Arranged effects s)
    (hknows : r.Knows (Settled.of effects).header (Settled.of effects).after
      (Settled.of effects).mismatch s)
    (h : r.Places (Settled.of effects).header s) (ht : r.Steps s line t) :
    r.Places (Settled.of (effects ++ t.effects)).header t.next := by
  by_cases hs : s.verdict = .missing
  · have hnil := (harr.missing hs).1
    cases ht with
    | scan ht => simpa [hnil] using ht.places (Or.inl rfl)
    | opened _ ht => simpa [hnil] using ht.places hknows
    | unmarked _ ht | unopened _ _ ht =>
        simpa [hnil] using ht.places (Or.inl rfl)
    | @second held | @unlike held =>
        have hheaded : r.Headed (held ++ [line]) := Headed.append h _
        simpa [Places, hnil, mismatchAt] using hheaded
    | closed | overrun | agreed | disagreed | drain | matched | differed =>
        cases hs
  · have hn : t.next.verdict ≠ .missing := fun hn => hs (ht.phase.missing hn).1
    rw [places_iff_headed hs] at h
    rw [places_iff_headed hn]
    simpa using h.append (Settled.of t.effects).header

/-- By the step, the opener is in its place after every run. -/
theorem places_run (lines : List Text) :
    r.Places (Settled.of (r.run .scanning lines).1).header
      (r.run .scanning lines).2 := by
  refine (run_induction (P := fun _ effects s => Arranged effects s
    ∧ r.Knows (Settled.of effects).header (Settled.of effects).after
      (Settled.of effects).mismatch s
    ∧ r.Places (Settled.of effects).header s) ?_ ?_ lines).2.2
  · exact ⟨arranged_run (r := r) [], trivial, trivial⟩
  · intro seen effects s line t ⟨harr, hknows, hplaces⟩ ht
    exact ⟨harr.step ht, knows_step harr hknows ht,
      places_step harr hknows hplaces ht⟩

variable {t : Text} {p : Regions}

/-- The opener of a header stands among the lines of the file. -/
theorem headed_of_parse (h : r.parse t = .ok p) (hm : p.verdict ≠ .missing) :
    r.Headed p.header := by
  have hheaded : r.Headed
      (Settled.of (r.run .scanning t.closedLines).1).header :=
    (places_iff_headed (verdict_of_parse h ▸ hm)).1 (places_run t.closedLines)
  obtain ⟨-, ⟨hheader, -⟩ | ⟨hheader, -⟩⟩ := settled_of_parse h hm
  · rwa [hheader] at hheaded
  · -- the empty line below the text is not the opener
    rw [hheader] at hheaded
    obtain ⟨line, hline, hopen⟩ := hheaded
    have hne : p.header ≠ [] := by
      intro hnil
      obtain ⟨front, opener, more, heq, -⟩ := opens_of_parse h hm
      simp [hnil] at heq
    rw [openerPlace_append hne] at hline
    by_cases hlt : r.openerPlace p.header < p.header.length
    · exact ⟨line, by rwa [List.getElem?_append_left hlt] at hline, hopen⟩
    · have hmem := List.mem_of_getElem? (List.getElem?_append_right
        (Nat.le_of_not_lt hlt) ▸ hline)
      rw [List.mem_singleton.1 hmem, CommentFormat.isOpener_nil] at hopen
      cases hopen

-- ======================================================== the file's lines

/-- The search settles the lines from the header on and the empty line
below them. -/
theorem append_of_parse (h : r.parse t = .ok p) (hm : p.verdict ≠ .missing) :
    (Settled.of (r.run .scanning t.closedLines).1).header
      ++ (Settled.of (r.run .scanning t.closedLines).1).after
      = p.header ++ p.after ++ [[]] := by
  obtain ⟨-, ⟨hheader, hafter⟩ | ⟨hheader, hafter, hnil⟩⟩ :=
    settled_of_parse h hm
  · rw [hheader, hafter, List.append_assoc]
  · rw [hheader, hafter, hnil]
    simp

/-- Below a stale header that differs are the lines out of reach of the
place from which its end is looked for. -/
theorem after_of_differsAt_found (h : r.parse t = .ok p)
    (hm : p.verdict ≠ .missing) {lines rest : List Text}
    (hlines : p.header ++ p.after = lines) {place : Nat}
    (hdiffers : DiffersAt p.found r.header.lines place)
    (hrest : lines.drop (resume (r.openerPlace lines) place) = rest) :
    p.after = rest.drop (r.format.reach rest) := by
  have hne : lines ≠ [] :=
    hlines ▸ ((headed_of_parse h hm).append p.after).ne_nil
  have happend := append_of_parse h hm
  rw [← found_of_parse h hm] at hdiffers
  obtain ⟨forced, more, hsplit, hlen, -, hafter⟩ :=
    header_of_differsAt rfl rfl (verdict_of_parse h ▸ hm) hdiffers
  rw [happend, hlines] at hsplit
  rw [happend, hlines, openerPlace_append hne] at hlen
  have hreal : (Settled.of (r.run .scanning t.closedLines).1).after
        = p.after ++ [[]]
      ∨ (Settled.of (r.run .scanning t.closedLines).1).after = []
        ∧ p.after = [] := by
    obtain ⟨-, ⟨-, hafter⟩ | ⟨-, hafter, hnil⟩⟩ := settled_of_parse h hm
    · exact Or.inl hafter
    · exact Or.inr ⟨hafter, hnil⟩
  have hmore : more = (lines ++ [[]]).drop forced.length := by
    rw [hsplit, List.drop_left]
  rw [← hlen] at hrest
  rcases Nat.lt_or_ge lines.length forced.length with hlt | hle
  · -- the empty line is already taken
    have hnil : more = [] := by
      rw [hmore]
      exact List.drop_eq_nil_of_le (by simp; omega)
    obtain rfl : rest = [] := hrest.symm.trans (List.drop_eq_nil_of_le hlt.le)
    rw [hafter, hnil] at hreal
    simpa [CommentFormat.reach] using hreal
  · rw [hmore, List.drop_append_of_le_length hle, hrest] at hafter
    exact CommentFormat.drop_reach_of_empty_line hreal hafter

/-- A header that ends too early: all lines of the file from its first on. -/
private theorem header_of_found_prefix (h : r.parse t = .ok p)
    (hm : p.verdict ≠ .missing) (hfound : p.found <+: r.header.lines) :
    p.after = [] ∧ p.header.map content <+: r.header.lines := by
  have hlen := length_le_header (verdict_of_parse h ▸ hm)
    (found_of_parse h hm ▸ List.prefix_rfl) hfound
  have happend := congrArg List.length (found_of_parse h hm)
  rw [List.length_map, List.length_append] at happend
  have hnil := List.length_eq_zero_iff.1 (by omega :
    (Settled.of (r.run .scanning t.closedLines).1).after.length = 0)
  obtain ⟨-, ⟨-, hafter⟩ | ⟨-, -, hafter⟩⟩ := settled_of_parse h hm
  · rw [hnil] at hafter
    simp at hafter
  · refine ⟨hafter, List.IsPrefix.trans ?_ hfound⟩
    rw [Regions.found, hafter, List.append_nil]
    exact List.prefix_append _ _

/-- A header with a line below the expected ones that may not stand
there. -/
private theorem header_of_found_append (h : r.parse t = .ok p)
    (hs : p.verdict = .stale) {entry : Text} {more : List Text}
    (hfound : p.found = r.header.lines ++ entry :: more) :
    p.header.map content = r.header.lines := by
  have hm : p.verdict ≠ .missing := by simp [hs]
  have hmatched : (r.run .scanning t.closedLines).2 ≠ .matched := by
    intro heq
    rw [verdict_of_parse h, heq] at hs
    cases hs
  have hheader := header_of_overrun (verdict_of_parse h ▸ hm) hmatched
    ((found_of_parse h hm).trans hfound)
  obtain ⟨-, ⟨hreal, -⟩ | ⟨hreal, -, hnil⟩⟩ := settled_of_parse h hm
  · rwa [hreal] at hheader
  · -- the empty line is the last expected one, and there is no entry below
    rw [hreal] at hheader
    rw [Regions.found, hnil, List.append_nil, ← hheader] at hfound
    simp at hfound

/-- A stale header without a difference has the expected lines and none
but them. -/
private theorem header_of_no_difference (h : r.parse t = .ok p)
    (hs : p.verdict = .stale)
    (hsame : ∀ place, ¬ DiffersAt p.found r.header.lines place) :
    p.header = (p.header ++ p.after).take r.header.lines.length
      ∧ p.header.map content <+: r.header.lines := by
  have hprefix : p.found <+: r.header.lines
      ∨ ∃ entry more, p.found = r.header.lines ++ entry :: more := by
    rcases prefix_or_differsAt p.found r.header.lines with
      hfound | ⟨_ | ⟨entry, more⟩, hfound⟩ | ⟨place, hdiffers⟩
    · exact Or.inl hfound
    · exact Or.inl ⟨[], by rw [List.append_nil, ← hfound, List.append_nil]⟩
    · exact Or.inr ⟨entry, more, hfound.symm⟩
    · exact absurd hdiffers (hsame place)
  rcases hprefix with hfound | ⟨entry, more, hfound⟩
  · obtain ⟨hafter, hheader⟩ := header_of_found_prefix h (by simp [hs]) hfound
    refine ⟨?_, hheader⟩
    rw [hafter, List.append_nil, List.take_of_length_le]
    simpa using hheader.length_le
  · have hheader := header_of_found_append h hs hfound
    refine ⟨?_, hheader ▸ List.prefix_rfl⟩
    rw [← hheader, List.length_map, List.take_left]

/-- A stale header that differs has the lines up to the place from which
its end is looked for, and the lines in reach from there. -/
private theorem header_of_differsAt_found (h : r.parse t = .ok p)
    (hm : p.verdict ≠ .missing) {lines rest : List Text}
    (hlines : p.header ++ p.after = lines) {place : Nat}
    (hdiffers : DiffersAt p.found r.header.lines place)
    (hrest : lines.drop (resume (r.openerPlace lines) place) = rest) :
    p.header
      = lines.take (resume (r.openerPlace lines) place)
        ++ rest.take (r.format.reach rest) := by
  have hafter := after_of_differsAt_found h hm hlines hdiffers hrest
  refine List.append_cancel_right (?_ : p.header ++ p.after = _ ++ p.after)
  calc p.header ++ p.after
      = lines.take (resume (r.openerPlace lines) place) ++ rest := by
        rw [hlines, ← hrest, List.take_append_drop]
    _ = lines.take (resume (r.openerPlace lines) place)
          ++ (rest.take (r.format.reach rest)
          ++ rest.drop (r.format.reach rest)) := by
        rw [List.take_append_drop]
    _ = _ := by rw [← hafter, List.append_assoc]

end Recognizer

-- ============================================================== result

/-- Which lines a stale header has. The lines from it on begin with the
opener, under an opening line if there is one. Where they and the expected
lines agree as far as both go, the header is all lines that are expected
and no other. Where they first differ at a place, the header has the lines
up to where its end is looked for from that place, then the longest run of
lines that carry the comment on and do not end it, and the next line too
if that ends it; what remains is below it as it was. -/
theorem stale_header_extent {notice : Notice} {f : CommentFormat} {t : Text}
    {p : Regions} (hp : (Recognizer.ofNotice notice f).parse t = .ok p)
    (hs : p.verdict = .stale) :
    ∃ lines opener, Text.lines t = p.before ++ lines
      ∧ p.header ++ p.after = lines
      ∧ opener = (Recognizer.ofNotice notice f).openerPlace lines
      ∧ (∃ line, p.header[opener]? = some line ∧ f.isOpener line = true)
      ∧ ((∀ place, ¬ DiffersAt p.found (notice.render f).lines place) →
        p.header = lines.take (notice.render f).lines.length
          ∧ p.header.map content <+: (notice.render f).lines)
      ∧ ∀ place, DiffersAt p.found (notice.render f).lines place →
        ∃ start inner last, start = Recognizer.resume opener place
          ∧ p.header = lines.take start ++ inner ++ last
          ∧ lines.drop start = inner ++ last ++ p.after
          ∧ LongestRun
            (fun line => ¬ f.Ends line ∧ f.isContinuation line = true) inner
            (lines.drop start)
          ∧ ((∃ line, last = [line] ∧ f.Ends line) ∨ last = [] ∧ ∀ next,
            p.after.head? = some next → ¬ f.Ends next) := by
  have hm : p.verdict ≠ .missing := by simp [hs]
  have hheaded := Recognizer.headed_of_parse hp hm
  have hlines := Recognizer.append_regions (Recognizer.ofNotice notice f) t
  rw [← Recognizer.eq_regions_of_parse hp, List.append_assoc] at hlines
  refine ⟨_, _, hlines.symm, rfl, rfl, ?_,
    Recognizer.header_of_no_difference hp hs, fun place hdiffers => ?_⟩
  · rw [Recognizer.openerPlace_append hheaded.ne_nil]
    exact hheaded
  have hheader := Recognizer.header_of_differsAt_found hp hm rfl hdiffers rfl
  have hafter := Recognizer.after_of_differsAt_found hp hm rfl hdiffers rfl
  -- what is in reach from there is a run of inner lines and perhaps the end
  obtain ⟨inner, last, htake, hrun, hlast⟩ :=
    CommentFormat.exists_of_reach (f := f)
      ((p.header ++ p.after).drop (Recognizer.resume
        ((Recognizer.ofNotice notice f).openerPlace (p.header ++ p.after))
        place))
  refine ⟨_, inner, last, rfl, ?_, ?_, hrun, ?_⟩
  · rw [List.append_assoc, ← htake]
    exact hheader
  · rw [← htake]
    exact (List.take_append_drop _ _).symm.trans (congrArg _ hafter.symm)
  · rw [hafter]
    exact hlast

/-- An outdated header above a package clause: from its second line on, its
end is looked for. -/
theorem stale_header_extent_of_package :
    ∃ inner last, ((Recognizer.ofNotice
          ⟨["Copyright (c) 2024 A".toList], by simp, by decide, by decide⟩
          (CommentFormat.led "//")).regions
          "// Copyright (c) 2019 A\n// MIT\n\npackage a".toList).header
        = "// Copyright (c) 2019 A\n".toList :: inner ++ last
      ∧ ["// MIT\n".toList, "\n".toList, "package a".toList]
        = inner ++ last ++ ["package a".toList]
      ∧ LongestRun (fun line => ¬ (CommentFormat.led "//").Ends line
          ∧ (CommentFormat.led "//").isContinuation line = true) inner
        ["// MIT\n".toList, "\n".toList, "package a".toList] := by
  obtain ⟨lines, opener, -, hlines, hopener, -, -, hdiffers⟩ :=
    @stale_header_extent
      ⟨["Copyright (c) 2024 A".toList], by simp, by decide, by decide⟩
      (CommentFormat.led "//") _ _
      (Recognizer.parse_eq _
        "// Copyright (c) 2019 A\n// MIT\n\npackage a".toList)
      (by decide +kernel)
  obtain ⟨start, inner, last, hstart, hheader, hrest, hrun, -⟩ := hdiffers 0
    ⟨[], "// Copyright (c) 2019 A".toList, "// Copyright (c) 2024 A".toList,
      ["// MIT".toList, [], "package a".toList, []], [],
      by decide +kernel, by decide +kernel, by decide, rfl⟩
  obtain rfl : ["// Copyright (c) 2019 A\n".toList, "// MIT\n".toList,
        "\n".toList, "package a".toList] = lines := by
    rw [← hlines]
    decide +kernel
  obtain rfl : start = 1 := by
    rw [hstart, hopener]
    decide +kernel
  have hafter : ((Recognizer.ofNotice
      ⟨["Copyright (c) 2024 A".toList], by simp, by decide, by decide⟩
      (CommentFormat.led "//")).regions
      "// Copyright (c) 2019 A\n// MIT\n\npackage a".toList).after
      = ["package a".toList] := by decide +kernel
  rw [hafter] at hrest
  exact ⟨inner, last, hheader, hrest, hrun⟩

end CopyrightNotice
