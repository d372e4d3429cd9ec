/-
Which opener begins a header: a rule on the lines of a file, put beside
the search that finds it.

# The rule

An opener is a false start when it is the notice's first line, under the
opening line if there is to be one, and the line below it neither is the
second line nor carries a comment on. Every other opener begins a header
(`Begins`). The first of them is where the header is, together with the
line above it if that is an opening line of any width (`beginning`).

# What a search holds

The state of a search without a header is a matter of the last two lines
it has read (`pending`): it holds a false start that may yet be none, an
opening line, or nothing. Lines that are quiet, all their openers being
false starts, leave it there (`run_of_quiet`); the first opener that
begins a header makes it find one, with what was held above that opener
and nothing else (`before_of_begins`).
-/
import CopyrightNotice.Proofs.Header.Opening
import Mathlib.Data.Nat.Find

namespace CopyrightNotice

open Text (content)

/-- The line above a place. -/
def Text.lineAbove (lines : List Text) : Nat → Option Text
  | 0 => none
  | i + 1 => lines[i]?

theorem Text.lineAbove_append (front behind : List Text) (line : Text) :
    lineAbove (front ++ line :: behind) front.length = front.getLast? := by
  rcases List.eq_nil_or_concat' front with rfl | ⟨init, last, rfl⟩
  · rfl
  · simp [lineAbove]

namespace Recognizer

variable {r : Recognizer}

-- ============================================================ the rule

/-- An opener that is ordinary text: it is the notice's first line in its
place, but the line below it shows that no notice follows. -/
structure FalseStart (r : Recognizer) (above : Option Text) (line : Text)
    (below : Option Text) : Prop where
  due : 2 ≤ r.header.body.length
  opening : ∀ o, r.header.opening = some o → above.map content = some o
  first : content line = r.header.body.head r.header.body_ne_nil
  second : below.map content ≠ r.header.body[1]?
  plain : ∀ next, below = some next → r.format.isContinuation next = false

/-- A header begins at a place of the lines, an opening line above it
aside. -/
def Begins (r : Recognizer) (lines : List Text) (i : Nat) : Prop :=
  ∃ line, lines[i]? = some line ∧ r.format.isOpener line = true
    ∧ ¬ r.FalseStart (Text.lineAbove lines i) line lines[i + 1]?

/-- Where the header begins, the opening line included. -/
def beginning (r : Recognizer) (lines : List Text) (i : Nat) : Nat :=
  if (Text.lineAbove lines i).any r.isMarker then i - 1 else i

/-- A false start, with each part of it computable. -/
theorem falseStart_iff {above below : Option Text} {line : Text} :
    r.FalseStart above line below ↔ 2 ≤ r.header.body.length
      ∧ (∀ o ∈ r.header.opening, above.map content = some o)
      ∧ r.header.body.head? = some (content line)
      ∧ below.map content ≠ r.header.body[1]?
      ∧ ∀ next ∈ below, r.format.isContinuation next = false := by
  rw [List.head?_eq_some_head r.header.body_ne_nil, Option.some_inj]
  constructor
  · exact fun h => ⟨h.due, h.opening, h.first.symm, h.second, h.plain⟩
  · exact fun h => ⟨h.1, h.2.1, h.2.2.1.symm, h.2.2.2.1, h.2.2.2.2⟩

instance (above : Option Text) (line : Text) (below : Option Text) :
    Decidable (r.FalseStart above line below) :=
  decidable_of_iff _ falseStart_iff.symm

instance (lines : List Text) (i : Nat) : Decidable (r.Begins lines i) :=
  inferInstanceAs (Decidable (∃ line ∈ lines[i]?, r.format.isOpener line = true
    ∧ ¬ r.FalseStart (Text.lineAbove lines i) line lines[i + 1]?))

/-- A header begins at a line that opens one and is no false start between its
neighbours. -/
theorem begins_append_iff {front behind : List Text} {line : Text} :
    r.Begins (front ++ line :: behind) front.length
      ↔ r.format.isOpener line = true
        ∧ ¬ r.FalseStart front.getLast? line behind.head? := by
  have hbelow : (front ++ line :: behind)[front.length + 1]?
      = behind.head? := by
    simp [List.getElem?_append_right, List.head?_eq_getElem?]
  simp [Begins, Text.lineAbove_append, hbelow]

/-- What speaks for a false start without the line below does so before
that line is read. -/
theorem FalseStart.unread {above below : Option Text} {line : Text}
    (h : r.FalseStart above line below) : r.FalseStart above line none where
  due := h.due
  opening := h.opening
  first := h.first
  second := by
    rw [List.getElem?_eq_getElem h.due]
    nofun
  plain := nofun

/-- Lines whose openers are false starts; `next` is the line below them. -/
def Quiet (r : Recognizer) (lines : List Text) (next : Option Text) : Prop :=
  ∀ front line behind, lines = front ++ line :: behind →
    r.format.isOpener line = true →
      r.FalseStart front.getLast? line (behind.head?.or next)

/-- Lines that are quiet above some line are quiet at the end of a text. -/
theorem Quiet.unread {lines : List Text} {next : Option Text}
    (h : r.Quiet lines next) : r.Quiet lines none := by
  intro front line behind hsplit hopen
  have hstart := h front line behind hsplit hopen
  cases behind with
  | nil => exact hstart.unread
  | cons => exact hstart

/-- Quiet lines are quiet up to the last and that one is quiet, too. -/
private theorem Quiet.of_concat {lines : List Text} {line : Text}
    {next : Option Text} (h : r.Quiet (lines ++ [line]) next) :
    r.Quiet lines (some line)
      ∧ (r.format.isOpener line = true →
        r.FalseStart lines.getLast? line next) := by
  constructor
  · intro front l behind hsplit hopen
    have hstart := h front l (behind ++ [line]) (by simp [hsplit]) hopen
    simpa using hstart
  · intro hopen
    exact h lines line [] rfl hopen

/-- A line below quiet lines is quiet, too, unless it is an opener and no
false start. -/
theorem Quiet.concat {lines : List Text} {line : Text} {next : Option Text}
    (h : r.Quiet lines (some line))
    (hline : r.format.isOpener line = true →
      r.FalseStart lines.getLast? line next) :
    r.Quiet (lines ++ [line]) next := by
  intro front l behind hsplit hopen
  rcases List.eq_nil_or_concat' behind with rfl | ⟨init, last, rfl⟩
  · obtain ⟨rfl, hlast⟩ := List.append_inj' hsplit rfl
    obtain rfl := (List.cons.inj hlast).1
    exact hline hopen
  · rw [← List.cons_append, ← List.append_assoc] at hsplit
    obtain ⟨rfl, hlast⟩ := List.append_inj' hsplit rfl
    obtain rfl := (List.cons.inj hlast).1
    have hstart := h front l init rfl hopen
    cases init <;> exact hstart

/-- Lines without an opener are quiet. -/
theorem quiet_of_no_opener {lines : List Text}
    (h : ∀ line ∈ lines, r.format.isOpener line = false) (next : Option Text) :
    r.Quiet lines next := by
  intro front line behind hsplit hopen
  rw [h line (by simp [hsplit])] at hopen
  cases hopen

/-- Lines in which no header begins are quiet. -/
theorem quiet_of_not_begins {front behind : List Text}
    (h : ∀ i < front.length, ¬ r.Begins (front ++ behind) i) :
    r.Quiet front behind.head? := by
  intro above line below hsplit hopen
  have hnot := h above.length (by simp [hsplit])
  rw [hsplit, List.append_assoc, List.cons_append, begins_append_iff, not_and,
    not_not] at hnot
  rw [← List.head?_append]
  exact hnot hopen

/-- A header begins at a line, and none above it. -/
structure BeginsFirst (r : Recognizer) (front : List Text) (line : Text)
    (behind : List Text) : Prop where
  quiet : r.Quiet front (some line)
  opener : r.format.isOpener line = true
  genuine : ¬ r.FalseStart front.getLast? line behind.head?

/-- Where headers begin, one begins first. -/
theorem exists_first_begins {lines : List Text} (hex : ∃ i, r.Begins lines i) :
    ∃ i, r.Begins lines i ∧ ∀ k < i, ¬ r.Begins lines k :=
  ⟨Nat.find hex, Nat.find_spec hex, fun _ hk => Nat.find_min hex hk⟩

/-- The first place at which a header begins cuts the lines in two. -/
theorem split_of_first_begins {lines : List Text} {i : Nat}
    (hbegins : r.Begins lines i) (hfirst : ∀ k < i, ¬ r.Begins lines k) :
    ∃ front line behind, lines = front ++ line :: behind
      ∧ front.length = i
      ∧ r.BeginsFirst front line behind := by
  obtain ⟨line, hline, -⟩ := id hbegins
  obtain ⟨hi, rfl⟩ := List.getElem?_eq_some_iff.1 hline
  have hlen : (lines.take i).length = i := by
    rw [List.length_take]
    omega
  have hsplit : lines = lines.take i ++ lines[i] :: lines.drop (i + 1) := by
    rw [← List.drop_eq_getElem_cons hi, List.take_append_drop]
  generalize lines.take i = front at hlen hsplit
  generalize lines[i] = line at hsplit
  generalize lines.drop (i + 1) = behind at hsplit
  subst hsplit hlen
  have hquiet : r.Quiet front (some line) :=
    @quiet_of_not_begins r front (line :: behind) hfirst
  rw [begins_append_iff] at hbegins
  exact ⟨front, line, behind, rfl, rfl, hquiet, hbegins.1, hbegins.2⟩

-- ====================================================== what it holds

/-- The opening line at the end of the lines, if there is one. -/
def above (r : Recognizer) (lines : List Text) : List Text :=
  (lines.getLast?.filter r.isMarker).toList

/-- What a search that has found no header holds of the lines read. -/
def pending (r : Recognizer) (lines : List Text) : Search :=
  match lines.getLast? with
  | none => .scanning
  | some line =>
    if r.format.isOpener line then .opener (r.above lines.dropLast ++ [line])
    else if r.isMarker line then .marker [line]
    else .scanning

@[simp] theorem above_nil : r.above [] = [] := rfl

theorem above_concat (lines : List Text) (line : Text) :
    r.above (lines ++ [line]) = if r.isMarker line then [line] else [] := by
  by_cases h : r.isMarker line = true <;> simp [above, h]

/-- It is what a search may hold above an opener. -/
theorem held_above (lines : List Text) : r.Held (r.above lines) := by
  rcases List.eq_nil_or_concat' lines with rfl | ⟨init, last, rfl⟩
  · exact Or.inl rfl
  · rw [above_concat]
    by_cases hmark : r.isMarker last = true
    · rw [if_pos hmark]
      exact Or.inr ⟨last, rfl, hmark⟩
    · rw [if_neg hmark]
      exact Or.inl rfl

theorem pending_concat (lines : List Text) (line : Text) :
    r.pending (lines ++ [line])
      = if r.format.isOpener line then .opener (r.above lines ++ [line])
        else if r.isMarker line then .marker [line]
        else .scanning := by
  simp [pending]

/-- What is pending is no header. -/
theorem verdict_pending (lines : List Text) :
    (r.pending lines).verdict = .missing := by
  unfold pending
  split
  · rfl
  · split
    · rfl
    · split <;> rfl

/-- The line shows that a false start above it is one. -/
def Breaks (r : Recognizer) (lines : List Text) (line : Text) : Prop :=
  ∀ last, lines.getLast? = some last → r.format.isOpener last = true →
    r.header.body[1]? ≠ some (content line)
    ∧ r.format.isContinuation line = false

/-- A false start at the last line is broken by the line below, which is
neither the second line of the notice nor a continuation. -/
theorem Quiet.breaks {lines : List Text} {line : Text}
    (h : r.Quiet lines (some line)) : r.Breaks lines line := by
  intro last hlast hopen
  have hsplit : lines = lines.dropLast ++ last :: [] :=
    (List.dropLast_append_getLast? last hlast).symm
  have hstart := h _ _ _ hsplit hopen
  exact ⟨fun heq => hstart.second heq.symm, hstart.plain line rfl⟩

-- ============================================================== steps

section
variable (hopening : ∀ o, r.header.opening = some o →
  r.format.isOpener o = false)
include hopening

/-- A step from what is held scans the line, an opener under the opening
line above it and another line afresh. -/
theorem Steps.scans_of_breaks {lines : List Text} {line : Text}
    {t : Transition} (hbreaks : r.Breaks lines line)
    (ht : r.Steps (r.pending lines) line t) :
    ∃ (released : List Text) (t' : Transition), t
        = ⟨t'.next, released.map .before ++ t'.effects⟩
      ∧ r.Scans (if r.format.isOpener line then r.above lines else [])
        line t' := by
  rcases List.eq_nil_or_concat' lines with rfl | ⟨init, last, rfl⟩
  · cases ht with
    | scan hscan => exact ⟨[], t, rfl, by simpa using hscan⟩
  · rw [pending_concat] at ht
    rw [above_concat]
    by_cases hlast : r.format.isOpener last = true
    · -- a false start above the line is let go of
      obtain ⟨hne, hcont⟩ := hbreaks last List.getLast?_concat hlast
      rw [if_pos hlast] at ht
      rw [isMarker_of_isOpener hopening hlast]
      cases ht with
      | second heq => exact absurd heq hne
      | unlike _ h =>
          rw [hcont] at h
          cases h
      | unopened _ _ hscan => exact ⟨_, _, rfl, by simpa using hscan⟩
    · rw [if_neg hlast] at ht
      by_cases hmark : r.isMarker last = true
      · rw [if_pos hmark] at ht ⊢
        cases ht with
        | opened hopen hscan => exact ⟨[], t, rfl, by rwa [if_pos hopen]⟩
        | unmarked hopen hscan =>
            exact ⟨_, _, rfl, by simpa [hopen] using hscan⟩
      · rw [if_neg hmark] at ht ⊢
        cases ht with
        | scan hscan => exact ⟨[], t, rfl, by simpa using hscan⟩

omit hopening in
/-- A line that opens nothing is held as a marker, or nothing is held. -/
private theorem Scans.pending_of_text {lines : List Text} {line : Text}
    {t : Transition} (hopen : r.format.isOpener line = false)
    (ht : r.Scans [] line t) : t.next = r.pending (lines ++ [line]) := by
  rw [pending_concat, hopen]
  cases ht with
  | marker _ hmark => simp [hmark]
  | text hplain =>
      have hmark : r.isMarker line = false := by simpa using hplain
      simp [hmark]
  | misplaced _ h | unlike _ h | whole _ h | first _ h =>
      rw [hopen] at h
      cases h

omit hopening in
/-- Under the lines read there is no fault of the opening exactly if the
last of them is the opening line, where there is to be one. -/
private theorem openingFault?_above (lines : List Text) (line : Text) :
    r.openingFault? (r.above lines) line = none
      ↔ ∀ o, r.header.opening = some o →
        lines.getLast?.map content = some o := by
  unfold openingFault?
  cases ho : r.header.opening with
  | none => simp
  | some opening =>
      rcases List.eq_nil_or_concat' lines with rfl | ⟨init, last, rfl⟩
      · simp
      · rw [above_concat]
        by_cases hlast : content last = opening
        · simp [isMarker_of_content_eq ho hlast, hlast]
        · by_cases hmark : r.isMarker last = true <;> simp [hmark, hlast]

/-- An opener is held as a false start or begins a header, with the
opening line above it. -/
theorem Scans.of_opener {lines : List Text} {line : Text} {t : Transition}
    (hopen : r.format.isOpener line = true)
    (ht : r.Scans (r.above lines) line t) :
    (r.FalseStart lines.getLast? line none
        ∧ t.next = r.pending (lines ++ [line]))
      ∨ (¬ r.FalseStart lines.getLast? line none
        ∧ t.next.verdict ≠ .missing
        ∧ (Settled.of t.effects).header = r.above lines ++ [line]
        ∧ (Settled.of t.effects).after = []) := by
  have hfault := r.openingFault?_above lines line
  cases ht with
  | marker _ hmark =>
      rw [isMarker_of_isOpener hopening hopen] at hmark
      cases hmark
  | text _ h =>
      rw [hopen] at h
      cases h
  -- in these three the line begins a header at once
  | misplaced _ _ fault h =>
      refine Or.inr ⟨fun hstart =>
        ?_, by simp [Search.verdict], by simp, by simp⟩
      rw [hfault.2 hstart.opening] at h
      cases h
  | unlike _ _ _ hne =>
      refine Or.inr ⟨fun hstart => hne hstart.first, by simp [Search.verdict],
        by simp [mismatchAt], by simp [mismatchAt]⟩
  | whole _ _ _ _ hlen =>
      refine Or.inr ⟨fun hstart =>
        ?_, by simp [Search.verdict], by simp, by simp⟩
      have := hstart.due
      omega
  -- here the second line is still to be seen
  | first _ _ h heq hlen =>
      have hpos := r.length_body_pos
      refine Or.inl ⟨⟨by omega, hfault.1 h, heq, ?_, fun next hnext => ?_⟩, ?_⟩
      · rw [List.getElem?_eq_getElem (by omega : 1 < r.header.body.length)]
        exact Option.some_ne_none _ ∘ Eq.symm
      · cases hnext
      · rw [pending_concat, if_pos hopen]

-- =============================================================== runs

/-- Quiet lines leave a search without a header, holding what the last of
them may begin. -/
theorem run_of_quiet {lines : List Text} (h : r.Quiet lines none) :
    (r.run .scanning lines).2 = r.pending lines := by
  induction lines using List.reverseRecOn with
  | nil => rfl
  | append_singleton seen line ih =>
      obtain ⟨hseen, hline⟩ := h.of_concat
      obtain ⟨released, t, ht, hscan⟩ :=
        (r.steps_step (r.pending seen) line).scans_of_breaks hopening
          hseen.breaks
      rw [run_concat, ih hseen.unread, ht]
      by_cases hopen : r.format.isOpener line = true
      · rw [if_pos hopen] at hscan
        rcases hscan.of_opener hopening hopen with ⟨-, hnext⟩ | ⟨hnot, -⟩
        · exact hnext
        · exact absurd (hline hopen) hnot
      · rw [if_neg hopen] at hscan
        exact hscan.pending_of_text (Bool.not_eq_true _ ▸ hopen)

omit hopening in
/-- The line below a held first line confirms it. -/
private theorem Steps.goes_on {held : List Text} {line : Text} {t : Transition}
    (hgoes : r.header.body[1]? = some (content line)
      ∨ r.format.isContinuation line = true)
    (ht : r.Steps (.opener held) line t) :
    t.next.verdict ≠ .missing
      ∧ (Settled.of t.effects).header = held ++ [line]
      ∧ (Settled.of t.effects).after = [] := by
  cases ht with
  | second | unlike => simp [Search.verdict, mismatchAt]
  | unopened hne hcont =>
      rcases hgoes with heq | h
      · exact absurd heq hne
      · rw [hcont] at h
        cases h

omit hopening in
/-- What the step that finds a header does not put into it of the lines
seen is before the header. -/
theorem before_of_found {seen front top new : List Text} {line : Text}
    (hseen : (r.run .scanning seen).2.verdict = .missing)
    (hsplit : seen ++ [line] = front ++ new)
    (hstep : (r.step (r.run .scanning seen).2 line).next.verdict ≠ .missing
      ∧ (Settled.of (r.step (r.run .scanning seen).2 line).effects).header
        = top ++ new
      ∧ (Settled.of (r.step (r.run .scanning seen).2 line).effects).after = [])
    (more : List Text) :
    (r.run .scanning (seen ++ line :: more)).2.verdict ≠ .missing
      ∧ (Settled.of (r.run .scanning (seen ++ line :: more)).1).before ++ top
        = front := by
  obtain ⟨hfound, hheader, hafter⟩ := hstep
  obtain ⟨hverdict, hbefore⟩ := run_found hfound more
  obtain ⟨hnil, hnil', -⟩ := (arranged_run (r := r) seen).missing hseen
  have hread : (r.run .scanning (seen ++ [line])).2.verdict ≠ .missing := by
    rw [run_concat]
    exact hfound
  have hcons := append_settled hread
  rw [run_concat] at hcons
  simp only [Settled.of_append, hnil, hnil', hheader, hafter, List.append_nil,
    List.nil_append] at hcons
  rw [hsplit, ← List.append_assoc] at hcons
  rw [run_append, run_cons]
  refine ⟨hverdict, ?_⟩
  simp only [Settled.of_append, hbefore, List.append_nil]
  exact List.append_cancel_right hcons

/-- The first opener that begins a header makes the search find one; before
it are the lines above that opener, but for the opening line. -/
private theorem before_of_begins {front behind : List Text} {line : Text}
    (hquiet : r.Quiet front (some line))
    (hopen : r.format.isOpener line = true)
    (hbegins : ¬ r.FalseStart front.getLast? line behind.head?) :
    (r.run .scanning (front ++ line :: behind)).2.verdict ≠ .missing
      ∧ (Settled.of (r.run .scanning (front ++ line :: behind)).1).before
          ++ r.above front
        = front := by
  have hfront := run_of_quiet hopening hquiet.unread
  obtain ⟨released, t, ht, hscan⟩ :=
    (r.steps_step (r.pending front) line).scans_of_breaks hopening
      hquiet.breaks
  rw [if_pos hopen] at hscan
  rcases hscan.of_opener hopening hopen with ⟨hstart, hnext⟩ | ⟨-, hfound,
    hheader, hafter⟩
  · -- held as a false start, the opener is confirmed by the line below
    have hseen : (r.run .scanning (front ++ [line])).2
        = .opener (r.above front ++ [line]) := by
      rw [run_concat, hfront, ht]
      show t.next = _
      rw [hnext, pending_concat, if_pos hopen]
    obtain ⟨next, more, rfl, hgoes⟩ : ∃ next more, behind = next :: more
        ∧ (r.header.body[1]? = some (content next)
          ∨ r.format.isContinuation next = true) := by
      cases behind with
      | nil => exact absurd hstart hbegins
      | cons next more =>
          refine ⟨next, more, rfl, ?_⟩
          by_contra hnot
          rw [not_or, Bool.not_eq_true] at hnot
          refine hbegins ⟨hstart.due, hstart.opening, hstart.first,
            fun heq => hnot.1 heq.symm, fun next' hnext' => ?_⟩
          rw [← Option.some.inj hnext']
          exact hnot.2
    have hstep :=
      (r.steps_step (.opener (r.above front ++ [line])) next).goes_on hgoes
    rw [← hseen, List.append_assoc] at hstep
    have hwhole := before_of_found (by rw [hseen]; rfl)
      (show front ++ [line] ++ [next] = front ++ ([line] ++ [next]) by simp)
      hstep more
    simpa using hwhole
  · rw [← hfront] at ht
    refine before_of_found ?_ rfl ?_ behind
    · rw [hfront]
      exact verdict_pending front
    · rw [ht]
      exact ⟨hfound, by simpa using hheader, by simpa using hafter⟩

omit hopening in
/-- Lines are quiet, or a header begins in them and above it none. -/
theorem quiet_or_beginsFirst (r : Recognizer) (lines : List Text) :
    r.Quiet lines none ∨ ∃ front line behind, lines = front ++ line :: behind
      ∧ r.BeginsFirst front line behind := by
  by_cases hex : ∃ i, r.Begins lines i
  · right
    obtain ⟨i, hi, hleast⟩ := exists_first_begins hex
    obtain ⟨front, line, behind, hsplit, -, hfirst⟩ :=
      split_of_first_begins hi hleast
    exact ⟨front, line, behind, hsplit, hfirst⟩
  · left
    exact @quiet_of_not_begins r lines [] fun i _ hbegins =>
      hex ⟨i, by rwa [List.append_nil] at hbegins⟩

/-- Where a header begins first, the search finds it: the lines from there
on, and the opening line above them, are the header and what is behind
it. -/
theorem settled_of_beginsFirst {front behind : List Text} {line : Text}
    (h : r.BeginsFirst front line behind) :
    (r.run .scanning (front ++ line :: behind)).2.verdict ≠ .missing
    ∧ (Settled.of (r.run .scanning (front ++ line :: behind)).1).before
        ++ r.above front = front
    ∧ (Settled.of (r.run .scanning (front ++ line :: behind)).1).header
        ++ (Settled.of (r.run .scanning (front ++ line :: behind)).1).after
      = r.above front ++ line :: behind := by
  obtain ⟨hfound, hbefore⟩ :=
    before_of_begins hopening h.quiet h.opener h.genuine
  refine ⟨hfound, hbefore, ?_⟩
  have hall := append_settled hfound
  rw [List.append_assoc] at hall
  refine List.append_cancel_left (hall.trans ?_)
  rw [← List.append_assoc, hbefore]

/-- A search without a header has read false starts only. -/
theorem quiet_of_missing {lines : List Text}
    (hm : (r.run .scanning lines).2.verdict = .missing) :
    r.Quiet lines none := by
  rcases quiet_or_beginsFirst r lines with hquiet | ⟨front, line, behind,
    rfl, hfirst⟩
  · exact hquiet
  · exact absurd hm (settled_of_beginsFirst hopening hfirst).1

/-- A search that has found a header has read the first line that begins
one. -/
theorem beginsFirst_of_found {lines : List Text}
    (hm : (r.run .scanning lines).2.verdict ≠ .missing) :
    ∃ front line behind, lines = front ++ line :: behind
      ∧ r.BeginsFirst front line behind := by
  rcases quiet_or_beginsFirst r lines with hquiet | hfirst
  · rw [run_of_quiet hopening hquiet] at hm
    exact absurd (verdict_pending lines) hm
  · exact hfirst

-- ============================================================= regions

/-- Where a header begins first, the search finds it. -/
theorem before_of_first_begins {t : Text} {p : Regions}
    (hp : r.parse t = .ok p) {i : Nat} (hbegins : r.Begins t.closedLines i)
    (hfirst : ∀ k < i, ¬ r.Begins t.closedLines k) :
    p.verdict ≠ .missing
      ∧ p.before = t.closedLines.take (r.beginning t.closedLines i) := by
  obtain ⟨front, line, behind, hsplit, rfl, hstart⟩ :=
    split_of_first_begins hbegins hfirst
  obtain ⟨hfound, hbefore, -⟩ := settled_of_beginsFirst hopening hstart
  rw [← hsplit] at hfound hbefore
  have hverdict : p.verdict ≠ .missing := by rwa [verdict_of_parse hp]
  refine ⟨hverdict, ?_⟩
  rw [(settled_of_parse hp hverdict).1] at hbefore
  rw [beginning, hsplit, Text.lineAbove_append]
  rcases List.eq_nil_or_concat' front with rfl | ⟨init, last, rfl⟩
  · simpa using hbefore
  · rw [above_concat] at hbefore
    rw [List.getLast?_concat, Option.any_some]
    by_cases hmark : r.isMarker last = true
    · rw [if_pos hmark] at hbefore ⊢
      simp [List.append_cancel_right hbefore]
    · rw [if_neg hmark, List.append_nil] at hbefore
      rw [if_neg hmark, hbefore, List.take_left']
      rfl

/-- There is no header if and only if none begins anywhere. -/
theorem missing_iff_not_begins {t : Text} {p : Regions}
    (hp : r.parse t = .ok p) :
    p.verdict = .missing ↔ ∀ i, ¬ r.Begins t.closedLines i := by
  constructor
  · intro hmissing i hbegins
    obtain ⟨j, hj, hleast⟩ := exists_first_begins ⟨i, hbegins⟩
    exact (before_of_first_begins hopening hp hj hleast).1 hmissing
  · intro hnone
    have hquiet : r.Quiet t.closedLines none :=
      @quiet_of_not_begins r t.closedLines [] fun i _ => by simpa using hnone i
    rw [verdict_of_parse hp, run_of_quiet hopening hquiet]
    exact verdict_pending _

end

end Recognizer

-- ============================================================== result

/-- Where no header begins, by the rule, none is found; where one begins
first, the lines before the header are those above it, and above its
opening line if there is one of any width. -/
theorem parse_finds_first {notice : Notice} {f : CommentFormat}
    (hstart : ∀ o, (notice.render f).opening = some o → f.isOpener o = false)
    (t : Text) :
    ∃ p, (Recognizer.ofNotice notice f).parse t = .ok p
      ∧ (p.verdict = .missing ↔
          ∀ i, ¬ (Recognizer.ofNotice notice f).Begins t.closedLines i)
      ∧ ∀ i, (Recognizer.ofNotice notice f).Begins t.closedLines i →
          (∀ k < i, ¬ (Recognizer.ofNotice notice f).Begins t.closedLines k) →
          p.before = t.closedLines.take
            ((Recognizer.ofNotice notice f).beginning t.closedLines i) := by
  have hp := Recognizer.parse_eq (Recognizer.ofNotice notice f) t
  refine ⟨_, hp, Recognizer.missing_iff_not_begins hstart hp,
    fun i hi hfirst => ?_⟩
  exact (Recognizer.before_of_first_begins hstart hp hi hfirst).2

/-- The first opener of a script is a false start, the second begins a
header under a banner of another width. -/
theorem parse_finds_first_in_script :
    ((Recognizer.ofNotice
        ⟨["Copyright (c) A".toList, "B".toList], by simp, by decide, by decide⟩
        (CommentFormat.banner '#' "#")).regions
      (List.replicate 80 '#' ++ "\n# Copyright (c) A\nimport os\n".toList
        ++ "####\n# Copyright (c) A\n# B\n".toList)).before
      = [List.replicate 80 '#' ++ ['\n'], "# Copyright (c) A\n".toList,
          "import os\n".toList] := by
  obtain ⟨p, hp, -, hbefore⟩ := @parse_finds_first
    ⟨["Copyright (c) A".toList, "B".toList], by simp, by decide, by decide⟩
    (CommentFormat.banner '#' "#") (by decide +kernel)
    (List.replicate 80 '#' ++ "\n# Copyright (c) A\nimport os\n".toList
      ++ "####\n# Copyright (c) A\n# B\n".toList)
  rw [← Recognizer.eq_regions_of_parse hp,
    hbefore 4 (by decide +kernel) (by decide +kernel)]
  decide +kernel

end CopyrightNotice
