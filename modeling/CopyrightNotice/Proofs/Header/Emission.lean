/-
What a single step keeps, whatever the state it starts from.

The split of a text at its header rests on runs from the start. Their
induction needs less: a step settles the held lines and its own in order
and holds the rest (`Steps.conserves`) also from states that no run
reaches, with no line held where one is expected, or with several. Here
is what else such a step keeps.

# Fresh looks

A line that shows the held lines to be ordinary text is looked at from
the start, as if nothing were above it. `Looks` is the step told with
this repetition in it, and counts how often a line is looked at afresh.
From the start no line is, so one fresh look is the last
(`Looks.eq_step`).

# Order of emission

Once a line is in the header or behind it, none is put before it any
more: not by the same step, which emits the lines it lets go first
(`Steps.pairwise`), nor by a later one, since the search has then found
a header (`pairwise_run`).
-/
import CopyrightNotice.Proofs.Header.Partition

namespace CopyrightNotice

open Text (content)

/-- Whether an effect may be emitted somewhere before another: once a line
is in the header or behind it, no line is put before it. -/
def Effect.MayPrecede (earlier later : Effect) : Prop :=
  earlier.header? ≠ none ∨ earlier.after? ≠ none → later.before? = none

namespace Recognizer

-- ========================================================= fresh looks

/-- The looks at a line that end in a transition, and how many of them are
fresh ones: a line that turns the held lines into ordinary text is looked
at once more, from the start, behind the lines let go. -/
inductive Looks (r : Recognizer) (line : Text) :
    Search → Nat → Transition → Prop where
  | scanning : Looks r line .scanning 0 (r.scan [] line)
  | opened {held : List Text} (hopen : r.format.isOpener line = true) :
      Looks r line (.marker held) 0 (r.scan held line)
  | unmarked {held : List Text} {again : Nat} {t : Transition}
      (hopen : r.format.isOpener line = false)
      (ht : Looks r line .scanning again t) :
      Looks r line (.marker held) (again + 1)
        ⟨t.next, held.map .before ++ t.effects⟩
  | second {held : List Text} (heq : r.header.body[1]? = some (content line)) :
      Looks r line (.opener held) 0 ⟨.comparing 2,
      (held ++ [line]).map .header⟩
  | unlike {held : List Text} (hne : r.header.body[1]? ≠ some (content line))
      (hcont : r.format.isContinuation line = true) :
      Looks r line (.opener held) 0
        ⟨.draining, (held ++ [line]).map .header ++ [r.mismatchAt line 1]⟩
  | unopened {held : List Text} {again : Nat} {t : Transition}
      (hne : r.header.body[1]? ≠ some (content line))
      (hcont : r.format.isContinuation line = false)
      (ht : Looks r line .scanning again t) :
      Looks r line (.opener held) (again + 1)
        ⟨t.next, held.map .before ++ t.effects⟩
  | comparing {place : Nat} :
      Looks r line (.comparing place) 0 (r.compare place line)
  | draining : Looks r line .draining 0 (r.drain line)
  | matched : Looks r line .matched 0 ⟨.matched, [.after line]⟩
  | differed : Looks r line .differed 0 ⟨.differed, [.after line]⟩

variable {r : Recognizer} {line : Text} {s : Search} {t : Transition}

/-- From the start no line is looked at afresh. -/
theorem Looks.of_scanning {again : Nat} (h : r.Looks line .scanning again t) :
    again = 0 ∧ t = r.scan [] line := by
  cases h
  exact ⟨rfl, rfl⟩

/-- Every line is looked at to an end, and the step is that end. -/
private theorem looks_step (r : Recognizer) (s : Search) (line : Text) :
    ∃ again, r.Looks line s again (r.step s line) := by
  cases s with
  | scanning => exact ⟨0, .scanning⟩
  | marker held =>
      simp only [step]
      split
      · exact ⟨0, .opened ‹_›⟩
      · rename_i hopen
        exact ⟨1, .unmarked (Bool.eq_false_iff.2 hopen) .scanning⟩
  | opener held =>
      simp only [step, second]
      split
      · exact ⟨0, .second ‹_›⟩
      · rename_i hne
        split
        · exact ⟨0, .unlike hne ‹_›⟩
        · rename_i hcont
          exact ⟨1, .unopened hne (Bool.eq_false_iff.2 hcont) .scanning⟩
  | comparing place => exact ⟨0, .comparing⟩
  | draining => exact ⟨0, .draining⟩
  | matched => exact ⟨0, .matched⟩
  | differed => exact ⟨0, .differed⟩

/-- No line is looked at afresh more than once, and none in two ways. -/
private theorem Looks.eq_step {again : Nat} (h : r.Looks line s again t) :
    again ≤ 1 ∧ t = r.step s line := by
  cases h with
  | opened hopen => exact ⟨Nat.zero_le 1, by simp [step, hopen]⟩
  | unmarked hopen ht =>
      obtain ⟨rfl, rfl⟩ := ht.of_scanning
      exact ⟨Nat.le_refl 1, by simp [step, hopen, release]⟩
  | second heq => exact ⟨Nat.zero_le 1, by simp [step, Recognizer.second, heq]⟩
  | unlike hne hcont =>
      exact ⟨Nat.zero_le 1, by simp [step, Recognizer.second, hne, hcont]⟩
  | unopened hne hcont ht =>
      obtain ⟨rfl, rfl⟩ := ht.of_scanning
      exact ⟨Nat.le_refl 1, by simp [step, Recognizer.second, hne,
        hcont, release]⟩
  | scanning | comparing | draining | matched | differed =>
      exact ⟨Nat.zero_le 1, rfl⟩

-- =================================================== order of emission

/-- Lines before the header may come in front of everything. -/
theorem mayPrecede_of_mem_map_before {held : List Text} {earlier : Effect}
    (h : earlier ∈ held.map Effect.before) (later : Effect) :
    earlier.MayPrecede later := by
  obtain ⟨line, -, rfl⟩ := List.mem_map.1 h
  intro hplaced
  simp [Effect.header?, Effect.after?] at hplaced

theorem pairwise_map_before (held : List Text) :
    (held.map Effect.before).Pairwise Effect.MayPrecede :=
  List.pairwise_of_forall_mem_list fun _ h later _ =>
    mayPrecede_of_mem_map_before h later

theorem pairwise_of_before_eq_nil {effects : List Effect}
    (h : (Settled.of effects).before = []) :
    effects.Pairwise Effect.MayPrecede :=
  List.pairwise_of_forall_mem_list fun _ _ later hlater _ =>
    List.filterMap_eq_nil_iff.1 h later hlater

theorem Scans.pairwise {held : List Text} (h : r.Scans held line t) :
    t.effects.Pairwise Effect.MayPrecede := by
  cases h with
  | marker | first => exact .nil
  | text => exact pairwise_map_before _
  | misplaced | unlike | whole =>
      exact pairwise_of_before_eq_nil (by simp [mismatchAt])

/-- A step puts lines before the header, if at all, in front of its other
effects. -/
theorem Steps.pairwise (h : r.Steps s line t) :
    t.effects.Pairwise Effect.MayPrecede := by
  by_cases hs : s.verdict = .missing
  · cases h with
    | scan ht | opened _ ht => exact ht.pairwise
    | unmarked _ ht | unopened _ _ ht =>
        exact List.pairwise_append.2 ⟨pairwise_map_before _, ht.pairwise,
          fun _ hmem later _ => mayPrecede_of_mem_map_before hmem later⟩
    | second | unlike => exact pairwise_of_before_eq_nil (by simp [mismatchAt])
    | closed | overrun | agreed | disagreed | drain | matched | differed =>
        cases hs
  · exact pairwise_of_before_eq_nil (h.phase.before hs)

/-- A run from any state puts no line before the header once it has put one
into it or behind it. -/
theorem pairwise_run (r : Recognizer) (s : Search) (lines : List Text) :
    (r.run s lines).1.Pairwise Effect.MayPrecede := by
  induction lines using List.reverseRecOn with
  | nil => exact .nil
  | append_singleton seen line ih =>
      have hstep := r.steps_step (r.run s seen).2 line
      rw [run_concat]
      refine List.pairwise_append.2 ⟨ih, hstep.pairwise, ?_⟩
      intro earlier hearlier later hlater
      by_cases hm : (r.run s seen).2.verdict = .missing
      · -- without a header so far, all effects so far are lines before one
        obtain ⟨-, ls, hls⟩ := run_missing hm
        rw [hls] at hearlier
        exact mayPrecede_of_mem_map_before hearlier later
      · intro _
        exact List.filterMap_eq_nil_iff.1 (hstep.phase.before hm) later hlater

end Recognizer

-- ============================================================== result

/-- From every state, reached or not, a step settles and holds exactly the
lines held before and its own, in order, with at most one fresh look at
the line, which is one from the start. A run goes on from there without
taking anything for granted that is not so, and once it has put a line
into the header or behind it, it puts none before it. The first line of a
notice must not be held where there is no second one; nothing else is
asked of the state. -/
theorem step_conserves_lines {r : Recognizer} {s : Search} (hs : r.Ready s) :
    (∀ line, r.StepSafe s line
      ∧ (Settled.of (r.step s line).effects).lines ++ (r.step s line).next.held
        = s.held ++ [line]
      ∧ (∃ again, r.Looks line s again (r.step s line))
      ∧ ∀ again t, r.Looks line s again t → again ≤ 1 ∧ t = r.step s line)
    ∧ ∀ lines, r.RunSafe s lines
      ∧ (r.run s lines).1.Pairwise Effect.MayPrecede := by
  refine ⟨fun line => ⟨?_, ?_, ?_, ?_⟩, fun lines => ⟨?_, ?_⟩⟩
  · exact (Recognizer.stepSafe_iff_ready s line).2 hs
  · exact (r.steps_step s line).conserves
  · exact r.looks_step s line
  · exact fun _ _ hlooks => hlooks.eq_step
  · exact Recognizer.runSafe_of_ready hs lines
  · exact r.pairwise_run s lines

/-- Two lines are held as the first of a notice, which no run does. A line
of the program lets both go, and the header below it comes behind all
three. -/
theorem step_conserves_lines_of_two_held :
    (Recognizer.ofNotice
        ⟨["Copyright (c) 2024 A".toList, "MIT".toList], by simp, by decide,
          by decide⟩
        (CommentFormat.led "//")).Ready
        (.opener ["// Copyright (c) 2024 A\n".toList, "\n".toList])
      ∧ (∃ again t, again ≤ 1
        ∧ (Recognizer.ofNotice
          ⟨["Copyright (c) 2024 A".toList, "MIT".toList], by simp, by decide,
            by decide⟩
          (CommentFormat.led "//")).Looks
          "use f;\n".toList
          (.opener ["// Copyright (c) 2024 A\n".toList, "\n".toList]) again t
        ∧ (Settled.of t.effects).lines ++ t.next.held
          = ["// Copyright (c) 2024 A\n".toList, "\n".toList,
            "use f;\n".toList])
      ∧ [Effect.before "// Copyright (c) 2024 A\n".toList, .before "\n".toList,
        .before "use f;\n".toList, .header "// Copyright (c) 2019 A\n".toList,
        .mismatch ⟨"// Copyright (c) 2019 A".toList,
          "// Copyright (c) 2024 A".toList⟩, .after "use g;\n".toList].Pairwise
        Effect.MayPrecede := by
  have hready : (Recognizer.ofNotice
      ⟨["Copyright (c) 2024 A".toList,
        "MIT".toList], by simp, by decide, by decide⟩
      (CommentFormat.led "//")).Ready
      (.opener ["// Copyright (c) 2024 A\n".toList, "\n".toList]) :=
    Nat.le_refl 2
  obtain ⟨hstep, hrun⟩ := step_conserves_lines hready
  obtain ⟨-, hlines, ⟨again, hlooks⟩, hend⟩ := hstep "use f;\n".toList
  have hemitted : ((Recognizer.ofNotice
      ⟨["Copyright (c) 2024 A".toList,
        "MIT".toList], by simp, by decide, by decide⟩
      (CommentFormat.led "//")).run
      (.opener ["// Copyright (c) 2024 A\n".toList, "\n".toList])
      ["use f;\n".toList, "// Copyright (c) 2019 A\n".toList,
          "use g;\n".toList]).1
      = [.before "// Copyright (c) 2024 A\n".toList, .before "\n".toList,
        .before "use f;\n".toList, .header "// Copyright (c) 2019 A\n".toList,
        .mismatch ⟨"// Copyright (c) 2019 A".toList,
          "// Copyright (c) 2024 A".toList⟩,
        .after "use g;\n".toList] := by decide +kernel
  refine ⟨hready, ⟨again, _, (hend again _ hlooks).1, hlooks, hlines⟩, ?_⟩
  rw [← hemitted]
  exact (hrun _).2

end CopyrightNotice
