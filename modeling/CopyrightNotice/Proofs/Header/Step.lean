/-
The exits of a step: for every state and line, what a transition can be
and under which conditions, said once as relations, so that no later
proof opens `Recognizer.step` again.

# The relations

`Scans`, `Drains` and `Steps` have one constructor for each way out of
`scan`, `drain` and `step`, with its guards. A line that turns held
lines into ordinary text is looked at afresh, so `unmarked` and
`unopened` carry a scan without held lines.

# Runs

`run_append` cuts a run in two, and `run_induction` lifts what holds at
the start and survives a step to every run.
-/
import CopyrightNotice.Header.Regions
import Mathlib.Data.List.Induction

namespace CopyrightNotice

open Text (content)

-- ============================================================== exits

namespace Recognizer

variable (r : Recognizer)

/-- The exits of a scan. -/
inductive Scans (held : List Text) (line : Text) : Transition → Prop where
  | marker (hnil : held = []) (hmark : r.isMarker line = true) :
      Scans held line ⟨.marker [line], []⟩
  | text (hplain : (held.isEmpty && r.isMarker line) = false)
      (hopen : r.format.isOpener line = false) :
      Scans held line ⟨.scanning, (held ++ [line]).map .before⟩
  | misplaced (hplain : (held.isEmpty && r.isMarker line) = false)
      (hopen : r.format.isOpener line = true) (fault : Mismatch)
      (hfault : r.openingFault? held line = some fault) :
      Scans held line
        ⟨.draining, (held ++ [line]).map .header ++ [.mismatch fault]⟩
  | unlike (hplain : (held.isEmpty && r.isMarker line) = false)
      (hopen : r.format.isOpener line = true)
      (hfault : r.openingFault? held line = none)
      (hne : content line ≠ r.header.body.head r.header.body_ne_nil) :
      Scans held line
        ⟨.draining, (held ++ [line]).map .header ++ [r.mismatchAt line 0]⟩
  | whole (hplain : (held.isEmpty && r.isMarker line) = false)
      (hopen : r.format.isOpener line = true)
      (hfault : r.openingFault? held line = none)
      (heq : content line = r.header.body.head r.header.body_ne_nil)
      (hlen : r.header.body.length = 1) :
      Scans held line ⟨.comparing 1, (held ++ [line]).map .header⟩
  | first (hplain : (held.isEmpty && r.isMarker line) = false)
      (hopen : r.format.isOpener line = true)
      (hfault : r.openingFault? held line = none)
      (heq : content line = r.header.body.head r.header.body_ne_nil)
      (hlen : r.header.body.length ≠ 1) :
      Scans held line ⟨.opener (held ++ [line]), []⟩

/-- The exits of a line below a difference. -/
inductive Drains (line : Text) : Transition → Prop where
  | ended (hend : r.format.isEnd line = true) :
      Drains line ⟨.differed, [.header line]⟩
  | continued (hend : r.format.isEnd line = false)
      (hcont : r.format.isContinuation line = true) :
      Drains line ⟨.draining, [.header line]⟩
  | left (hend : r.format.isEnd line = false)
      (hcont : r.format.isContinuation line = false) :
      Drains line ⟨.differed, [.after line]⟩

/-- The exits of a step. -/
inductive Steps : Search → Text → Transition → Prop where
  | scan {line : Text} {t : Transition} (ht : r.Scans [] line t) :
      Steps .scanning line t
  | opened {held : List Text} {line : Text} {t : Transition}
      (hopen : r.format.isOpener line = true) (ht : r.Scans held line t) :
      Steps (.marker held) line t
  | unmarked {held : List Text} {line : Text} {t : Transition}
      (hopen : r.format.isOpener line = false) (ht : r.Scans [] line t) :
      Steps (.marker held) line ⟨t.next, held.map .before ++ t.effects⟩
  | second {held : List Text} {line : Text}
      (heq : r.header.body[1]? = some (content line)) :
      Steps (.opener held) line ⟨.comparing 2, (held ++ [line]).map .header⟩
  | unlike {held : List Text} {line : Text}
      (hne : r.header.body[1]? ≠ some (content line))
      (hcont : r.format.isContinuation line = true) :
      Steps (.opener held) line
        ⟨.draining, (held ++ [line]).map .header ++ [r.mismatchAt line 1]⟩
  | unopened {held : List Text} {line : Text} {t : Transition}
      (hne : r.header.body[1]? ≠ some (content line))
      (hcont : r.format.isContinuation line = false)
      (ht : r.Scans [] line t) :
      Steps (.opener held) line ⟨t.next, held.map .before ++ t.effects⟩
  | closed {place : Nat} {line : Text}
      (hlen : r.header.body.length ≤ place)
      (hterm : r.format.isTerminator line = true) :
      Steps (.comparing place) line ⟨.matched, [.header line]⟩
  | overrun {place : Nat} {line : Text}
      (hlen : r.header.body.length ≤ place)
      (hterm : r.format.isTerminator line = false) :
      Steps (.comparing place) line ⟨.differed, [.after line]⟩
  | agreed {place : Nat} {line : Text}
      (hlt : place < r.header.body.length)
      (heq : r.header.body[place]? = some (content line)) :
      Steps (.comparing place) line ⟨.comparing (place + 1), [.header line]⟩
  | disagreed {place : Nat} {line : Text} {t : Transition}
      (hlt : place < r.header.body.length)
      (hne : r.header.body[place]? ≠ some (content line))
      (ht : r.Drains line t) :
      Steps (.comparing place) line ⟨t.next,
        r.mismatchAt line place :: t.effects⟩
  | drain {line : Text} {t : Transition} (ht : r.Drains line t) :
      Steps .draining line t
  | matched {line : Text} : Steps .matched line ⟨.matched, [.after line]⟩
  | differed {line : Text} : Steps .differed line ⟨.differed, [.after line]⟩

/-- What a scan does is one of its ways. -/
theorem scans_scan (held : List Text) (line : Text) :
    r.Scans held line (r.scan held line) := by
  unfold scan
  simp only
  split
  · rename_i h
    rw [Bool.and_eq_true, List.isEmpty_iff] at h
    rw [h.1]
    exact .marker rfl h.2
  · rename_i h
    have hplain := Bool.eq_false_iff.2 h
    split
    · rename_i hopen
      exact .text hplain (by simpa using hopen)
    · rename_i hopen
      have hopen : r.format.isOpener line = true := by simpa using hopen
      split
      · rename_i fault hfault
        exact .misplaced hplain hopen fault hfault
      · rename_i hfault
        split
        · rename_i hne
          exact .unlike hplain hopen hfault hne
        · rename_i heq
          have heq := not_not.1 heq
          split
          · rename_i hlen
            exact .whole hplain hopen hfault heq hlen
          · rename_i hlen
            exact .first hplain hopen hfault heq hlen

/-- What is done behind the header is one of its ways. -/
theorem drains_drain (line : Text) : r.Drains line (r.drain line) := by
  unfold drain
  split
  · exact .ended ‹_›
  · rename_i hend
    have hend := Bool.eq_false_iff.2 hend
    split
    · exact .continued hend ‹_›
    · rename_i hcont
      exact .left hend (Bool.eq_false_iff.2 hcont)

/-- A step takes one of its exits. -/
theorem steps_step (s : Search) (line : Text) :
    r.Steps s line (r.step s line) := by
  cases s with
  | scanning => exact .scan (r.scans_scan [] line)
  | marker held =>
      simp only [step]
      split
      · exact .opened ‹_› (r.scans_scan held line)
      · rename_i hopen
        exact .unmarked (Bool.eq_false_iff.2 hopen) (r.scans_scan [] line)
  | opener held =>
      simp only [step, second]
      split
      · exact .second ‹_›
      · rename_i hne
        split
        · exact .unlike hne ‹_›
        · rename_i hcont
          exact .unopened hne (Bool.eq_false_iff.2 hcont)
            (r.scans_scan [] line)
  | comparing place =>
      simp only [step, compare]
      split
      · rename_i hlen
        split
        · exact .closed hlen ‹_›
        · rename_i hterm
          exact .overrun hlen (Bool.eq_false_iff.2 hterm)
      · rename_i hlen
        have hlt := Nat.lt_of_not_le hlen
        split
        · exact .agreed hlt ‹_›
        · exact .disagreed hlt ‹_› (r.drains_drain line)
  | draining => exact .drain (r.drains_drain line)
  | matched => exact .matched
  | differed => exact .differed

-- =============================================================== runs

@[simp] theorem run_nil (s : Search) : r.run s [] = ([], s) := rfl

theorem run_cons (s : Search) (line : Text) (more : List Text) :
    r.run s (line :: more)
      = ((r.step s line).effects ++ (r.run (r.step s line).next more).1,
          (r.run (r.step s line).next more).2) := rfl

/-- A run over two stretches of lines is a run over the first and one
from there over the second. -/
theorem run_append (s : Search) (front behind : List Text) :
    r.run s (front ++ behind)
      = ((r.run s front).1 ++ (r.run (r.run s front).2 behind).1,
          (r.run (r.run s front).2 behind).2) := by
  induction front generalizing s with
  | nil => rfl
  | cons line front ih =>
      rw [List.cons_append, run_cons, ih, run_cons]
      simp only [List.append_assoc]

theorem run_concat (s : Search) (front : List Text) (line : Text) :
    r.run s (front ++ [line])
      = ((r.run s front).1 ++ (r.step (r.run s front).2 line).effects,
          (r.step (r.run s front).2 line).next) := by
  rw [run_append, run_cons, run_nil]
  simp only [List.append_nil]

variable {r}

/-- What holds before the first line and survives every step holds after
every run. -/
theorem run_induction {P : List Text → List Effect → Search → Prop}
    {start : Search} (init : P [] [] start)
    (step : ∀ {seen effects s line t}, P seen effects s → r.Steps s line t →
      P (seen ++ [line]) (effects ++ t.effects) t.next) (lines : List Text) :
    P lines (r.run start lines).1 (r.run start lines).2 := by
  induction lines using List.reverseRecOn with
  | nil => exact init
  | append_singleton seen line ih =>
      rw [run_concat]
      exact step ih (r.steps_step _ line)

end Recognizer

end CopyrightNotice
