/-
Which lines begin a header.

# The invariant

`Opened` says of every state which lines stand behind it. A header found
begins with an opener, under an opening line or under none; a first line
that is held is an opener; and otherwise the search is waiting. So a
search without a header is waiting or holds the notice's first line, and
the last line read tells which (`waiting_iff_of_missing`).
-/
import CopyrightNotice.Proofs.Header.Block
import CopyrightNotice.Proofs.Header.Partition

namespace CopyrightNotice

open Text (content)

namespace Recognizer

variable {r : Recognizer}

-- ======================================================= the invariant

/-- Lines that begin with an opener, under a line that may open a header
or under none. -/
def Opens (r : Recognizer) (lines : List Text) : Prop :=
  ∃ front line more, lines = front ++ line :: more ∧ r.Held front
    ∧ r.format.isOpener line = true

theorem Opens.append {lines : List Text} (h : r.Opens lines)
    (new : List Text) : r.Opens (lines ++ new) := by
  obtain ⟨front, line, more, rfl, hfront, hopen⟩ := h
  exact ⟨front, line, more ++ new, by simp, hfront, hopen⟩

/-- What a state says of the lines behind it. -/
def Opened (r : Recognizer) (header : List Text) : Search → Prop
  | .scanning => True
  | .marker held => r.Waiting (.marker held)
  | .opener held => r.Opens held
  | .comparing _ | .draining | .matched | .differed => r.Opens header

/-- A waiting search holds what may stand above an opener. -/
theorem Waiting.held {s : Search} (h : r.Waiting s) : r.Held s.held := by
  cases h with
  | scanning => exact Or.inl rfl
  | marker hmark => exact Or.inr ⟨_, rfl, hmark⟩

/-- A scanned line that opens a header opens the section, too. -/
theorem Scans.opened {held : List Text} {line : Text} {t : Transition}
    (hheld : r.Held held) (ht : r.Scans held line t) :
    r.Opened (Settled.of t.effects).header t.next := by
  cases ht with
  | marker _ hmark => exact .marker hmark
  | text => trivial
  | misplaced _ hopen | unlike _ hopen | whole _ hopen =>
      exact ⟨held, line, [], by simp [mismatchAt], hheld, hopen⟩
  | first _ hopen => exact ⟨held, line, [], rfl, hheld, hopen⟩

/-- Once there is a header, its state says how it starts. -/
theorem opened_iff_opens {header : List Text} {s : Search}
    (hs : s.verdict ≠ .missing) : r.Opened header s ↔ r.Opens header := by
  cases s with
  | scanning | marker | opener => exact absurd rfl hs
  | comparing | draining | matched | differed => exact Iff.rfl

/-- A step does not change how the header starts. -/
theorem Opened.step {effects : List Effect} {s : Search} {line : Text}
    {t : Transition} (harr : Arranged effects s)
    (h : r.Opened (Settled.of effects).header s) (ht : r.Steps s line t) :
    r.Opened (Settled.of (effects ++ t.effects)).header t.next := by
  by_cases hs : s.verdict = .missing
  · have hnil := (harr.missing hs).1
    cases ht with
    | scan ht => simpa [hnil] using ht.opened (Or.inl rfl)
    | opened _ ht => simpa [hnil] using ht.opened (Waiting.held h)
    | unmarked _ ht | unopened _ _ ht =>
        simpa [hnil] using ht.opened (Or.inl rfl)
    | @second held | @unlike held =>
        rw [opened_iff_opens (by simp [Search.verdict])]
        have hopens : r.Opens (held ++ [line]) := Opens.append h _
        simpa [hnil, mismatchAt] using hopens
    | closed | overrun | agreed | disagreed | drain | matched | differed =>
        cases hs
  · have hn : t.next.verdict ≠ .missing := fun hn => hs (ht.phase.missing hn).1
    rw [opened_iff_opens hs] at h
    rw [opened_iff_opens hn]
    simpa using h.append (Settled.of t.effects).header

/-- After every run the state tells which lines stand behind it. -/
theorem opened_run (lines : List Text) :
    r.Opened (Settled.of (r.run .scanning lines).1).header
      (r.run .scanning lines).2 := by
  refine (run_induction (P := fun _ effects s => Arranged effects s
    ∧ r.Opened (Settled.of effects).header s) ?_ ?_ lines).2
  · exact ⟨arranged_run (r := r) [], trivial⟩
  · intro seen effects s line t ih ht
    exact ⟨ih.1.step ht, ih.2.step ih.1 ht⟩

/-- The header of a text, if there is one, begins with an opener. -/
theorem opens_of_parse {t : Text} {p : Regions} (h : r.parse t = .ok p)
    (hm : p.verdict ≠ .missing) : r.Opens p.header := by
  have hopens : r.Opens
      (Settled.of (r.run .scanning t.closedLines).1).header := by
    have hopened := opened_run (r := r) t.closedLines
    rwa [opened_iff_opens (verdict_of_parse h ▸ hm)] at hopened
  obtain ⟨-, ⟨hheader, -⟩ | ⟨hheader, -⟩⟩ := settled_of_parse h hm
  · rwa [hheader] at hopens
  · -- the empty line below the text is not the opener
    rw [hheader] at hopens
    obtain ⟨front, line, more, heq, hfront, hopen⟩ := hopens
    rcases List.eq_nil_or_concat' more with rfl | ⟨init, last, rfl⟩
    · obtain ⟨-, hline⟩ := List.append_inj' heq rfl
      rw [← (List.cons.inj hline).1, CommentFormat.isOpener_nil] at hopen
      cases hopen
    · rw [← List.cons_append, ← List.append_assoc] at heq
      exact ⟨front, line, init, (List.append_inj' heq rfl).1, hfront, hopen⟩

-- ======================================================= the last line

/-- Where the opening line is not an opener, no opener is taken for one. -/
theorem isMarker_of_isOpener
    (hopening : ∀ o, r.header.opening = some o → r.format.isOpener o = false)
    {line : Text} (hopen : r.format.isOpener line = true) :
    r.isMarker line = false := by
  unfold isMarker
  split
  · rfl
  · rename_i o ho
    exact r.format.isMarkerLine_of_isOpener hopen (hopening o ho)

/-- An opener that opens no header block leaves no search waiting. -/
private theorem Steps.not_waiting {s : Search} {line : Text} {t : Transition}
    (hopen : r.format.isOpener line = true) (hmark : r.isMarker line = false)
    (ht : r.Steps s line t) : ¬ r.Waiting t.next := by
  have scans : ∀ {held t}, r.Scans held line t → ¬ r.Waiting t.next := by
    intro held t ht
    cases ht with
    | marker _ h =>
        rw [hmark] at h
        cases h
    | text _ h =>
        rw [hopen] at h
        cases h
    | misplaced | unlike | whole | first => nofun
  cases ht with
  | scan ht | opened _ ht => exact scans ht
  | unmarked _ ht | unopened _ _ ht =>
      have := scans ht
      exact this
  | disagreed _ _ ht | drain ht => cases ht <;> nofun
  | second | unlike | closed | overrun | agreed | matched | differed => nofun

/-- A search without a header that is not waiting holds the notice's first
line, under the opening line if there is one. -/
theorem held_of_not_waiting {lines : List Text}
    (hm : (r.run .scanning lines).2.verdict = .missing)
    (hwait : ¬ r.Waiting (r.run .scanning lines).2) :
    ∃ held, (r.run .scanning lines).2 = .opener held
      ∧ held.map content
        = r.header.opening.toList ++ r.header.body.take 1 := by
  have hopened := opened_run (r := r) lines
  have hknows := knows_run (r := r) lines
  cases hs : (r.run .scanning lines).2 with
  | scanning =>
      rw [hs] at hwait
      exact absurd .scanning hwait
  | marker held =>
      rw [hs] at hwait hopened
      exact absurd hopened hwait
  | opener held =>
      rw [hs] at hknows
      exact ⟨held, rfl, hknows.2⟩
  | comparing | draining | matched | differed =>
      rw [hs] at hm
      cases hm

/-- A search without a header is waiting, unless the line it has read last
is the notice's first line. -/
theorem waiting_iff_of_missing (hr : r.Readable) {lines : List Text}
    (hm : (r.run .scanning lines).2.verdict = .missing) :
    r.Waiting (r.run .scanning lines).2 ↔ ∀ line, lines.getLast? = some line →
      content line ≠ r.header.body.head r.header.body_ne_nil := by
  constructor
  · intro hwait line hlast heq
    obtain ⟨init, rfl⟩ : ∃ init, lines = init ++ [line] :=
      ⟨lines.dropLast, (List.dropLast_append_getLast? line hlast).symm⟩
    have hopen : r.format.isOpener line = true := by
      rw [← CommentFormat.isOpener_content, heq]
      exact hr.first
    rw [run_concat] at hwait
    exact (r.steps_step _ line).not_waiting hopen
      (isMarker_of_isOpener hr.opening hopen) hwait
  · intro hlast
    by_contra hwait
    obtain ⟨held, hs, hheld⟩ := held_of_not_waiting hm hwait
    -- the lines read end in the held ones, and these in the first line
    obtain ⟨ls, -, hlines⟩ := run_eq_of_missing hm
    rw [hs] at hlines
    simp only [Search.held] at hlines
    rw [List.take_one, List.head?_eq_some_head r.header.body_ne_nil,
      Option.toList_some] at hheld
    obtain ⟨front, behind, rfl, -, hbehind⟩ := List.map_eq_append_iff.1 hheld
    obtain ⟨line, rfl, hline⟩ := List.map_eq_singleton_iff.1 hbehind
    refine hlast line ?_ hline
    rw [← hlines, ← List.append_assoc]
    exact List.getLast?_concat

end Recognizer

end CopyrightNotice
