/-
What a run settles, region by region, and the two laws every run obeys.

# Conservation

`Steps.conserves`: from any state, reached or not, a step's lines in
order of emission and the lines held afterwards are the lines held
before and the line itself. Held lines are turned into effects, put in
front of those of a fresh look, or pushed on, and never dropped.

# Phases

A search that has found no header (`verdict = missing`) settles lines
before it and nothing else; one that has found a header settles no
further line before it (`Steps.phase`); one that is over settles every
line behind it. So the emission order of a run is before, header, after
(`Orderly`).
-/
import CopyrightNotice.Proofs.Header.Step

namespace CopyrightNotice

open Text (content)

-- ============================================================ settled

/-- The line an effect carries. -/
def Effect.line? : Effect → Option Text
  | .before line | .header line | .after line => some line
  | .mismatch _ => none

/-- What effects settle: all their lines in order of emission, the lines
of each region, and the first difference. -/
structure Settled where
  lines : List Text
  before : List Text
  header : List Text
  after : List Text
  mismatch : Option Mismatch

namespace Settled

/-- What a list of effects settles. -/
def of (effects : List Effect) : Settled where
  lines := effects.filterMap Effect.line?
  before := effects.filterMap Effect.before?
  header := effects.filterMap Effect.header?
  after := effects.filterMap Effect.after?
  mismatch := effects.findSome? Effect.mismatch?

@[simp] theorem of_nil : of [] = ⟨[], [], [], [], none⟩ := rfl

/-- Effects are settled in order, and the mismatch reported first stands. -/
@[simp] theorem of_append (a b : List Effect) :
    of (a ++ b)
      = ⟨(of a).lines ++ (of b).lines, (of a).before ++ (of b).before,
        (of a).header ++ (of b).header, (of a).after ++ (of b).after,
        (of a).mismatch.or (of b).mismatch⟩ := by
  simp [of, List.findSome?_append]

@[simp] theorem of_before_cons (line : Text) (effects : List Effect) :
    of (.before line :: effects)
      = ⟨line :: (of effects).lines, line :: (of effects).before,
        (of effects).header, (of effects).after, (of effects).mismatch⟩ :=
  rfl

@[simp] theorem of_header_cons (line : Text) (effects : List Effect) :
    of (.header line :: effects)
      = ⟨line :: (of effects).lines, (of effects).before,
          line :: (of effects).header, (of effects).after,
          (of effects).mismatch⟩ := rfl

@[simp] theorem of_after_cons (line : Text) (effects : List Effect) :
    of (.after line :: effects)
      = ⟨line :: (of effects).lines, (of effects).before, (of effects).header,
          line :: (of effects).after, (of effects).mismatch⟩ := rfl

@[simp] theorem of_mismatch_cons (m : Mismatch) (effects : List Effect) :
    of (.mismatch m :: effects)
      = ⟨(of effects).lines, (of effects).before, (of effects).header,
          (of effects).after, some m⟩ := rfl

/-- Lines sent before the header are in that section and in no other. -/
@[simp] theorem of_map_before (ls : List Text) :
    of (ls.map .before) = ⟨ls, ls, [], [], none⟩ := by
  induction ls with
  | nil => rfl
  | cons line ls ih =>
      rw [List.map_cons, of_before_cons, ih]

@[simp] theorem of_map_header (ls : List Text) :
    of (ls.map .header) = ⟨ls, [], ls, [], none⟩ := by
  induction ls with
  | nil => rfl
  | cons line ls ih =>
      rw [List.map_cons, of_header_cons, ih]

@[simp] theorem of_map_after (ls : List Text) :
    of (ls.map .after) = ⟨ls, [], [], ls, none⟩ := by
  induction ls with
  | nil => rfl
  | cons line ls ih =>
      rw [List.map_cons, of_after_cons, ih]

/-- The emission order is before, header, after. -/
def Orderly (e : Settled) : Prop := e.lines = e.before ++ e.header ++ e.after

end Settled

/-- Whether a search has nothing left to look for. -/
def Search.isOver : Search → Bool
  | .matched | .differed => true
  | _ => false

theorem Search.held_eq_nil {s : Search} (h : s.verdict ≠ .missing) :
    s.held = [] := by
  cases s <;> first | rfl | exact absurd rfl h

/-- The header is current in one state only. -/
theorem Search.verdict_eq_current (s : Search) :
    s.verdict = .current ↔ s = .matched := by
  cases s <;> simp [Search.verdict]

/-- A header that is there and not the expected one is stale. -/
theorem Verdict.eq_stale {v : Verdict} (hm : v ≠ .missing)
    (hc : v ≠ .current) : v = .stale := by
  cases v with
  | current => exact absurd rfl hc
  | stale => rfl
  | missing => exact absurd rfl hm

namespace Recognizer

variable {r : Recognizer}

-- ======================================================= conservation

/-- A scanned line is settled or held, behind the lines held before it. -/
theorem Scans.conserves {held : List Text} {line : Text} {t : Transition}
    (h : r.Scans held line t) :
    (Settled.of t.effects).lines ++ t.next.held = held ++ [line] := by
  cases h with
  | marker hnil => simp [hnil, Search.held]
  | text | misplaced | unlike | whole => simp [Search.held, mismatchAt]
  | first => simp [Search.held]

/-- A line read after the header is settled at once. -/
theorem Drains.conserves {line : Text} {t : Transition} (h : r.Drains line t) :
    (Settled.of t.effects).lines ++ t.next.held = [line] := by
  cases h <;> simp [Search.held]

/-- A step loses no line and settles them in order. -/
theorem Steps.conserves {s : Search} {line : Text} {t : Transition}
    (h : r.Steps s line t) :
    (Settled.of t.effects).lines ++ t.next.held = s.held ++ [line] := by
  cases h with
  | scan ht => exact ht.conserves
  | opened _ ht => exact ht.conserves
  | unmarked _ ht | unopened _ _ ht =>
      have := ht.conserves
      simpa [Search.held] using this
  | disagreed _ _ ht =>
      have := ht.conserves
      simpa [Search.held, mismatchAt] using this
  | drain ht => exact ht.conserves
  | second | unlike | closed | overrun | agreed | matched | differed =>
      simp [Search.held, mismatchAt]

-- ============================================================= phases

/-- What a step does to the regions, by what is known of the header: a
search that goes on without one only settles lines before it, one that
found it settles none of them any more, and only one that is over
settles lines behind it. -/
structure Phased (s : Search) (t : Transition) : Prop where
  missing : t.next.verdict = .missing →
    s.verdict = .missing ∧ ∃ ls : List Text, t.effects = ls.map .before
  before : s.verdict ≠ .missing → (Settled.of t.effects).before = []
  after : t.next.isOver = false → (Settled.of t.effects).after = []
  settled : s.isOver = true → (Settled.of t.effects).header = [] ∧ t.next = s
  found : s.verdict = .missing → t.next.verdict ≠ .missing →
    (Settled.of t.effects).header ≠ []
  orderly : (Settled.of t.effects).Orderly

/-- A scanned line is settled before the header, or opens or closes it. -/
theorem Scans.phase {held : List Text} {line : Text} {t : Transition}
    (h : r.Scans held line t) : Phased .scanning t := by
  cases h with
  | marker | first =>
      exact ⟨fun _ =>
        ⟨rfl, [], rfl⟩, by simp, by simp, by simp [Search.isOver],
        fun _ h => absurd rfl h, rfl⟩
  | text =>
      exact ⟨fun _ => ⟨rfl, _, rfl⟩, fun h => absurd rfl h, by simp, by simp,
        fun _ h => absurd rfl h, by simp [Settled.Orderly]⟩
  | misplaced | unlike | whole =>
      exact ⟨by simp [Search.verdict], fun h => absurd rfl h,
        by simp [mismatchAt], fun h => Bool.noConfusion h,
        by simp [mismatchAt], by simp [Settled.Orderly, mismatchAt]⟩

/-- A line read after the header starts no search again. -/
theorem Drains.phase {line : Text} {t : Transition} (h : r.Drains line t) :
    Phased .draining t := by
  cases h with
  | ended | continued | left =>
      exact ⟨by simp [Search.verdict], by simp, by simp [Search.isOver],
        fun h => Bool.noConfusion h, by simp [Search.verdict],
        by simp [Settled.Orderly]⟩

/-- Lines let go in front of a fresh look are before a header. -/
theorem Phased.release {t : Transition} (h : Phased .scanning t) {s : Search}
    (hs : s.verdict = .missing) (hover : s.isOver = false) (held : List Text) :
    Phased s ⟨t.next, held.map .before ++ t.effects⟩ where
  missing hn := by
    obtain ⟨-, ls, hls⟩ := h.missing hn
    exact ⟨hs, held ++ ls, by simp [hls]⟩
  before hne := absurd hs hne
  after hn := by simpa using h.after hn
  settled ho := by rw [hover] at ho; cases ho
  found _ hn := by simpa using h.found rfl hn
  orderly := by
    have := h.orderly
    simp only [Settled.Orderly] at this
    simp [Settled.Orderly, this]

/-- Each step stays in its phase of the search or moves on to the next. -/
theorem Steps.phase {s : Search} {line : Text} {t : Transition}
    (h : r.Steps s line t) : Phased s t := by
  cases h with
  | scan ht => exact ht.phase
  | opened _ ht =>
      have := ht.phase
      exact ⟨fun hn => ⟨rfl, (this.missing hn).2⟩, fun h => absurd rfl h,
        this.after, fun h => Bool.noConfusion h, fun _ => this.found rfl,
        this.orderly⟩
  | unmarked _ ht => exact ht.phase.release rfl rfl _
  | unopened _ _ ht => exact ht.phase.release rfl rfl _
  | second | unlike =>
      exact ⟨by simp [Search.verdict], fun h => absurd rfl h,
        by simp [mismatchAt], fun h => Bool.noConfusion h,
        by simp [mismatchAt], by simp [Settled.Orderly, mismatchAt]⟩
  | disagreed _ _ ht =>
      have := ht.phase
      have horder := this.orderly
      simp only [Settled.Orderly] at horder
      exact ⟨fun hn => absurd (this.missing hn).1 (by simp [Search.verdict]),
        fun _ => by
          simpa [mismatchAt] using this.before (by simp [Search.verdict]),
        fun hn => by simpa [mismatchAt] using this.after hn,
        fun h => Bool.noConfusion h, by simp [Search.verdict],
        by simp [Settled.Orderly, mismatchAt, horder]⟩
  | drain ht => exact ht.phase
  | closed | overrun | agreed | matched | differed =>
      exact ⟨by simp [Search.verdict], by simp, by simp [Search.isOver],
        by simp [Search.isOver], by simp [Search.verdict],
        by simp [Settled.Orderly]⟩

-- =============================================================== runs

/-- A run settles or holds every line, in order. -/
theorem run_conserves (s : Search) (lines : List Text) :
    (Settled.of (r.run s lines).1).lines ++ (r.run s lines).2.held
      = s.held ++ lines := by
  refine run_induction (P := fun seen effects last =>
    (Settled.of effects).lines ++ last.held = s.held ++ seen) ?_ ?_ lines
  · simp
  · intro seen effects last line t ih ht
    calc (Settled.of (effects ++ t.effects)).lines ++ t.next.held
        = (Settled.of effects).lines
            ++ ((Settled.of t.effects).lines ++ t.next.held) := by simp
      _ = ((Settled.of effects).lines ++ last.held) ++ [line] := by
          rw [ht.conserves, List.append_assoc]
      _ = s.held ++ (seen ++ [line]) := by rw [ih, List.append_assoc]

/-- A run that ends without a header was without one all along, and
settled lines before it only. -/
theorem run_missing {s : Search} {lines : List Text}
    (h : (r.run s lines).2.verdict = .missing) :
    s.verdict = .missing
      ∧ ∃ ls : List Text, (r.run s lines).1 = ls.map .before := by
  revert h
  refine run_induction (P := fun _ effects last => last.verdict = .missing →
    s.verdict = .missing ∧ ∃ ls : List Text,
    effects = ls.map .before) ?_ ?_ lines
  · intro h
    exact ⟨h, [], rfl⟩
  · intro seen effects last line t ih ht h
    obtain ⟨hlast, new, hnew⟩ := ht.phase.missing h
    obtain ⟨hs, old, hold⟩ := ih hlast
    exact ⟨hs, old ++ new, by rw [hold, hnew, List.map_append]⟩

/-- A run from the start that ends without a header has settled all its
lines but those it holds. -/
theorem run_eq_of_missing {lines : List Text}
    (h : (r.run .scanning lines).2.verdict = .missing) :
    ∃ ls : List Text, (r.run .scanning lines).1 = ls.map .before
      ∧ ls ++ (r.run .scanning lines).2.held = lines := by
  obtain ⟨-, ls, hls⟩ := run_missing h
  have hcons := run_conserves (r := r) .scanning lines
  rw [hls, Settled.of_map_before] at hcons
  exact ⟨ls, hls, hcons⟩

/-- A search that found a header settles no line before it any more. -/
theorem run_found {s : Search} (h : s.verdict ≠ .missing) (lines : List Text) :
    (r.run s lines).2.verdict ≠ .missing
      ∧ (Settled.of (r.run s lines).1).before = [] := by
  refine run_induction (P := fun _ effects last =>
    last.verdict ≠ .missing ∧ (Settled.of effects).before = []) ?_ ?_ lines
  · exact ⟨h, rfl⟩
  · intro seen effects last line t ih ht
    refine ⟨fun hn => ih.1 (ht.phase.missing hn).1, ?_⟩
    simp [ih.2, ht.phase.before ih.1]

/-- What effects and the state behind them have in common after every
run from the start. -/
structure Arranged (effects : List Effect) (s : Search) : Prop where
  missing : s.verdict = .missing → (Settled.of effects).header = []
    ∧ (Settled.of effects).after = [] ∧ (Settled.of effects).mismatch = none
  found : s.verdict ≠ .missing → (Settled.of effects).header ≠ []
  after : s.isOver = false → (Settled.of effects).after = []
  orderly : (Settled.of effects).Orderly

/-- A step keeps the sections in their order. -/
theorem Arranged.step {effects : List Effect} {s : Search} {line : Text}
    {t : Transition} (h : Arranged effects s) (ht : r.Steps s line t) :
    Arranged (effects ++ t.effects) t.next where
  missing hn := by
    obtain ⟨hs, ls, hls⟩ := ht.phase.missing hn
    obtain ⟨hheader, hafter, hmis⟩ := h.missing hs
    simp [hheader, hafter, hmis, hls]
  found hn := by
    by_cases hs : s.verdict = .missing
    · simpa using fun _ => ht.phase.found hs hn
    · simpa using fun he => absurd he (h.found hs)
  after hn := by
    have hs : s.isOver = false := by
      by_contra ho
      have ho := Bool.not_eq_false _ ▸ ho
      rw [(ht.phase.settled ho).2, ho] at hn
      cases hn
    simp [h.after hs, ht.phase.after hn]
  orderly := by
    have hold := h.orderly
    have hnew := ht.phase.orderly
    simp only [Settled.Orderly] at hold hnew
    by_cases hs : s.verdict = .missing
    · -- nothing but lines before a header so far
      obtain ⟨hheader, hafter, -⟩ := h.missing hs
      simp [Settled.Orderly, hold, hnew, hheader, hafter]
    · have hbefore := ht.phase.before hs
      by_cases ho : s.isOver = true
      · simp [Settled.Orderly, hold, hnew, hbefore, (ht.phase.settled ho).1]
      · have hafter := h.after (Bool.not_eq_true _ ▸ ho)
        simp [Settled.Orderly, hold, hnew, hbefore, hafter]

/-- By the step, the sections are in order after every run. -/
theorem arranged_run (lines : List Text) :
    Arranged (r.run .scanning lines).1 (r.run .scanning lines).2 := by
  refine run_induction (P := fun _ => Arranged) ?_ ?_ lines
  · exact ⟨by simp, fun h => absurd rfl h, by simp, rfl⟩
  · intro seen effects s line t h ht
    exact h.step ht

/-- With a header, the lines settled region by region are all lines. -/
theorem append_settled {lines : List Text}
    (h : (r.run .scanning lines).2.verdict ≠ .missing) :
    (Settled.of (r.run .scanning lines).1).before
        ++ (Settled.of (r.run .scanning lines).1).header
        ++ (Settled.of (r.run .scanning lines).1).after = lines := by
  have hcons := run_conserves (r := r) .scanning lines
  rw [(arranged_run lines).orderly, Search.held_eq_nil h,
    List.append_nil] at hcons
  exact hcons

end Recognizer

end CopyrightNotice
