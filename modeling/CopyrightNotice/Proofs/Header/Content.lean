/-
The search is blind to line ends: it settles the contents of lines as it
settles the lines.

`bare` strips the line ends off whatever a state, an effect or a
transition carries. Every question asked of a line is a question about
its content, so a step commutes with `bare` (`step_bare`), a run does
(`run_bare`), and two stretches of lines with the same contents end in
states with the same verdict (`verdict_of_map_content`).
-/
import CopyrightNotice.Proofs.Header.Opener
import CopyrightNotice.Proofs.Header.Step

namespace CopyrightNotice

open Text (content)

-- ================================================== without line ends

/-- The state that holds the contents of its lines. -/
def Search.bare : Search → Search
  | .scanning => .scanning
  | .marker held => .marker (held.map content)
  | .opener held => .opener (held.map content)
  | .comparing next => .comparing next
  | .draining => .draining
  | .matched => .matched
  | .differed => .differed

/-- The effect on the content of its line. -/
def Effect.bare : Effect → Effect
  | .before line => .before (content line)
  | .header line => .header (content line)
  | .after line => .after (content line)
  | .mismatch m => .mismatch m

/-- The transition with all lines' contents. -/
def Transition.bare (t : Transition) : Transition :=
  ⟨t.next.bare, t.effects.map Effect.bare⟩

@[simp] theorem Search.verdict_bare (s : Search) :
    s.bare.verdict = s.verdict := by
  cases s <;> rfl

-- ================================================ questions about lines

namespace Recognizer

variable (r : Recognizer)

@[simp] theorem isMarker_content (line : Text) :
    r.isMarker (content line) = r.isMarker line := by
  simp only [isMarker, Text.content_content]

@[simp] theorem mismatchAt_content (line : Text) (place : Nat) :
    r.mismatchAt (content line) place = r.mismatchAt line place := by
  simp only [mismatchAt, Text.content_content]

/-- What is wrong with an opening depends on the lines' content alone. -/
@[simp] theorem openingFault?_content (held : List Text) (line : Text) :
    r.openingFault? (held.map content) (content line)
      = r.openingFault? held line := by
  unfold openingFault?
  cases held <;> simp

-- =============================================================== steps

/-- A scan reads the lines' content alone. -/
theorem scan_bare (held : List Text) (line : Text) :
    r.scan (held.map content) (content line) = (r.scan held line).bare := by
  unfold scan
  simp only [List.isEmpty_map, isMarker_content,
    CommentFormat.isOpener_content, openingFault?_content,
    Text.content_content, mismatchAt_content]
  split
  · simp [Transition.bare, Search.bare]
  · split
    · simp [Transition.bare, Search.bare, Effect.bare]
    · split
      · simp [Transition.bare, Search.bare, Effect.bare]
      · split
        · simp [Transition.bare, Search.bare, Effect.bare, mismatchAt]
        · split
          · simp [Transition.bare, Search.bare, Effect.bare]
          · simp [Transition.bare, Search.bare]

/-- Held lines are released as they were held. -/
theorem release_bare (held : List Text) (line : Text) :
    r.release (held.map content) (content line)
      = (r.release held line).bare := by
  have hscan := r.scan_bare [] line
  rw [List.map_nil] at hscan
  rw [release, hscan, release]
  simp [Transition.bare, Effect.bare]

theorem drain_bare (line : Text) :
    r.drain (content line) = (r.drain line).bare := by
  unfold drain
  simp only [CommentFormat.isEnd_content, CommentFormat.isContinuation_content]
  split
  · rfl
  · split <;> rfl

/-- A step over a line's content is the step over the line, without line
ends. -/
private theorem step_bare (s : Search) (line : Text) :
    r.step s.bare (content line) = (r.step s line).bare := by
  cases s with
  | scanning => exact r.scan_bare [] line
  | marker held =>
      show (if r.format.isOpener (content line) then _ else _) = _
      rw [CommentFormat.isOpener_content, step]
      split
      · exact r.scan_bare held line
      · exact r.release_bare held line
  | opener held =>
      show r.second (held.map content) (content line)
        = (r.second held line).bare
      unfold second
      simp only [Text.content_content, CommentFormat.isContinuation_content,
        mismatchAt_content]
      split
      · simp [Transition.bare, Search.bare, Effect.bare]
      · split
        · simp [Transition.bare, Search.bare, Effect.bare, mismatchAt]
        · exact r.release_bare held line
  | comparing place =>
      show r.compare place (content line) = (r.compare place line).bare
      unfold compare
      simp only [Text.content_content, CommentFormat.isTerminator_content,
        mismatchAt_content, drain_bare]
      split
      · split <;> rfl
      · split <;> rfl
  | draining => exact r.drain_bare line
  | matched | differed => rfl

-- ================================================================ runs

/-- A run over the lines' contents is the run over the lines, without line
ends. -/
theorem run_bare (s : Search) (lines : List Text) :
    r.run s.bare (lines.map content)
      = ((r.run s lines).1.map Effect.bare, (r.run s lines).2.bare) := by
  induction lines generalizing s with
  | nil => rfl
  | cons line lines ih =>
      have hrest := ih (r.step s line).next
      rw [List.map_cons, run_cons, step_bare, run_cons, List.map_append]
      show (_ ++ (r.run (r.step s line).next.bare (lines.map content)).1,
        (r.run (r.step s line).next.bare (lines.map content)).2) = _
      rw [hrest]
      rfl

/-- Lines with the same contents lead to the same verdict. -/
theorem verdict_of_map_content {lines lines' : List Text}
    (h : lines.map content = lines'.map content) :
    (r.run .scanning lines).2.verdict
      = (r.run .scanning lines').2.verdict := by
  have hrun := r.run_bare .scanning lines
  have hrun' := r.run_bare .scanning lines'
  rw [h, hrun'] at hrun
  have hlast : (r.run .scanning lines').2.bare
      = (r.run .scanning lines).2.bare :=
    congrArg Prod.snd hrun
  rw [← Search.verdict_bare, ← hlast, Search.verdict_bare]

end Recognizer

end CopyrightNotice
