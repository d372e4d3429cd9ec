/-
The two readings of a script, from the search to the tidied script.

# The moves

A script is tidied by moves between neighbours: two runs of one kind
become one, a deletion and an insertion change places, a kept run without
lines goes, and an insertion slides over kept lines that it repeats. None
of them changes what the script spells, read as the old text or as the
new one (`SameReadings`).

# The search

A split in the middle cuts both texts at one place, so wherever it is the
two scripts, one behind the other, spell the whole (`readings_search`).
-/
import CopyrightNotice.Diff.Compaction
import CopyrightNotice.Diff.Search

namespace CopyrightNotice.Diff

-- ============================================================ readings

namespace Script

@[simp] theorem old_nil : old [] = [] := rfl

@[simp] theorem new_nil : new [] = [] := rfl

@[simp] theorem old_cons (r : Run) (s : Script) :
    old (r :: s) = r.old ++ old s :=
  rfl

@[simp] theorem new_cons (r : Run) (s : Script) :
    new (r :: s) = r.new ++ new s :=
  rfl

/-- What two scripts in sequence start from. -/
@[simp] theorem old_append (s u : Script) : old (s ++ u) = old s ++ old u :=
  List.flatMap_append

/-- What two scripts in sequence end with. -/
@[simp] theorem new_append (s u : Script) : new (s ++ u) = new s ++ new u :=
  List.flatMap_append

/-- Lines in one run are read on the old side unless they are inserted. -/
@[simp] theorem old_ofRun (c : Change) (lines : List Text) :
    old (ofRun c lines) = if c = .insert then [] else lines := by
  by_cases h : lines = [] <;> simp [ofRun, Run.old, h]

/-- Lines in one run are read on the new side unless they are deleted. -/
@[simp] theorem new_ofRun (c : Change) (lines : List Text) :
    new (ofRun c lines) = if c = .delete then [] else lines := by
  by_cases h : lines = [] <;> simp [ofRun, Run.new, h]

/-- The scripts lead from the same old lines to the same new ones. -/
structure SameReadings (s u : Script) : Prop where
  old : s.old = u.old
  new : s.new = u.new

namespace SameReadings

variable {s u v : Script}

theorem refl (s : Script) : SameReadings s s := ⟨rfl, rfl⟩

theorem trans (h : SameReadings s u) (h' : SameReadings u v) :
    SameReadings s v :=
  ⟨h.old.trans h'.old, h.new.trans h'.new⟩

theorem append {s' u' : Script} (h : SameReadings s u)
    (h' : SameReadings s' u') : SameReadings (s ++ s') (u ++ u') :=
  ⟨by simp [h.old, h'.old], by simp [h.new, h'.new]⟩

/-- A part of a script may be replaced by one that reads alike. -/
theorem within (h : SameReadings s u) (before after : Script) :
    SameReadings (before ++ (s ++ after)) (before ++ (u ++ after)) :=
  (refl before).append (h.append (refl after))

end SameReadings

-- =============================================================== moves

/-- Two runs of one kind that meet are one run. -/
theorem same_merge (c : Change) (front behind : List Text) :
    SameReadings [⟨c, front ++ behind⟩] [⟨c, front⟩, ⟨c, behind⟩] := by
  constructor <;> cases c <;> simp [Run.old, Run.new]

/-- Deletions and insertions do not read on the same side. -/
theorem same_swap {a b : Run} (ha : a.change ≠ .keep) (hb : b.change ≠ .keep)
    (hab : a.change ≠ b.change) : SameReadings [a, b] [b, a] := by
  obtain ⟨ca, linesA⟩ := a
  obtain ⟨cb, linesB⟩ := b
  constructor <;> cases ca <;> cases cb <;> simp_all [Run.old, Run.new]

/-- A run without lines is not there. -/
theorem same_drop (c : Change) : SameReadings [] [⟨c, []⟩] := by
  constructor <;> cases c <;> rfl

/-- An insertion slides up over kept lines that it ends in. -/
theorem same_slideUp (front slack body : List Text) :
    SameReadings [⟨.keep, front⟩, ⟨.insert, slack ++ body⟩, ⟨.keep, slack⟩]
      [⟨.keep, front ++ slack⟩, ⟨.insert, body ++ slack⟩] := by
  constructor <;> simp [Run.old, Run.new]

/-- An insertion slides down over kept lines that it starts with. -/
theorem same_slideDown (slack body behind : List Text) :
    SameReadings [⟨.keep, slack⟩, ⟨.insert, body ++ slack⟩, ⟨.keep, behind⟩]
      [⟨.insert, slack ++ body⟩, ⟨.keep, slack ++ behind⟩] := by
  constructor <;> simp [Run.old, Run.new]

end Script

-- =============================================================== views

namespace View

open Script (SameReadings same_merge same_swap same_drop same_slideUp
  same_slideDown)

/-- The script that a view is on. -/
def script (v : View) : Script := v.before.reverse ++ v.this :: v.after

/-- Lines kept in front of a script are one run more, if there are any. -/
private theorem same_keepInFront (lines : List Text) (after : Script) :
    SameReadings (keepInFront lines after) (⟨.keep, lines⟩ :: after) := by
  unfold keepInFront
  split
  · exact (same_merge .keep lines _).within [] _
  · exact .refl _

/-- Lines kept at the end of a script, which is held backwards, are one run
more. -/
private theorem same_keepBehind (lines : List Text) (before : Script) :
    SameReadings (keepBehind lines before).reverse
      (before.reverse ++ [⟨.keep, lines⟩]) := by
  unfold keepBehind
  split
  · rename_i more rest
    simpa using (same_merge .keep more lines).within rest.reverse []
  · simpa using .refl _

/-- A kept run that has lost all its lines is left out. -/
private theorem same_left (left : List Text) (rest : Script) :
    SameReadings (if left = [] then rest else ⟨.keep, left⟩ :: rest)
      (⟨.keep, left⟩ :: rest) := by
  split
  · rename_i hnil
    rw [hnil]
    exact (same_drop .keep).within [] rest
  · exact .refl _

/-- What is left of a kept run is one run more in a script held backwards. -/
private theorem same_left_reverse (left : List Text) (rest : Script) :
    SameReadings (if left = [] then rest else ⟨.keep, left⟩ :: rest).reverse
      (rest.reverse ++ [⟨.keep, left⟩]) := by
  split
  · rename_i hnil
    rw [hnil]
    simpa using (same_drop .keep).within rest.reverse []
  · simpa using .refl _

/-- Only an insertion has slack, and then slides over what it repeats. -/
private theorem same_slackUp {this kept : Run} (hkept : kept.change = .keep)
    (h : slackUp this kept ≠ []) :
    SameReadings
      [⟨.keep,
        kept.lines.take (kept.lines.length - (slackUp this kept).length)⟩,
        ⟨this.change,
          slackUp this kept
            ++ this.lines.take
              (this.lines.length - (slackUp this kept).length)⟩,
        ⟨.keep, slackUp this kept⟩]
      [kept, this] := by
  obtain ⟨_, keptLines⟩ := kept
  obtain ⟨change, lines⟩ := this
  obtain rfl : _ = Change.keep := hkept
  by_cases hinsert : change = .insert
  · subst hinsert
    simp only [slackUp, if_pos] at h ⊢
    have hslides := same_slideUp
      (keptLines.take (keptLines.length - (commonEnd keptLines lines).length))
      (commonEnd keptLines lines) (lines.take (lines.length
        - (commonEnd keptLines lines).length))
    rwa [List.suffix_iff_eq_append.1 (commonEnd_isSuffix_left keptLines lines),
      List.suffix_iff_eq_append.1 (commonEnd_isSuffix_right keptLines lines)]
      at hslides
  · exact absurd (if_neg hinsert) h

/-- A change that slides down over kept lines which repeat it leaves the same
lines behind. -/
private theorem same_slackDown {this kept : Run} (hkept : kept.change = .keep)
    (h : slackDown this kept ≠ []) :
    SameReadings
      [⟨.keep, slackDown this kept⟩,
        ⟨this.change,
          this.lines.drop (slackDown this kept).length ++ slackDown this kept⟩,
        ⟨.keep, kept.lines.drop (slackDown this kept).length⟩]
      [this, kept] := by
  obtain ⟨_, keptLines⟩ := kept
  obtain ⟨change, lines⟩ := this
  obtain rfl : _ = Change.keep := hkept
  by_cases hinsert : change = .insert
  · subst hinsert
    simp only [slackDown, if_pos] at h ⊢
    have hslides := same_slideDown (commonFront keptLines lines)
      (lines.drop (commonFront keptLines lines).length)
      (keptLines.drop (commonFront keptLines lines).length)
    rwa [List.prefix_iff_eq_append.1
      (commonFront_isPrefix_left keptLines lines), List.prefix_iff_eq_append.1
      (commonFront_isPrefix_right keptLines lines)] at hslides
  · exact absurd (if_neg hinsert) h

-- ------------------------------------------------------------------ up

/-- The view with the insertion moved up over its slack. -/
def slidUp (this prev : Run) (rest after : Script) : View :=
  let slack := slackUp this prev
  let left := prev.lines.take (prev.lines.length - slack.length)
  ⟨if left = [] then rest else ⟨.keep, left⟩ :: rest,
    ⟨this.change, slack ++ this.lines.take (this.lines.length - slack.length)⟩,
    keepInFront slack after⟩

/-- To slide up once changes no reading of the whole. -/
private theorem same_slidUp {this prev : Run} (hkeep : prev.change = .keep)
    (hslack : slackUp this prev ≠ []) (rest after : Script) :
    SameReadings (slidUp this prev rest after).script
      (script ⟨prev :: rest, this, after⟩) := by
  have hslides := (same_slackUp hkeep hslack).within rest.reverse after
  have hends := (same_left_reverse (prev.lines.take (prev.lines.length
    - (slackUp this prev).length)) rest).append
    ((SameReadings.refl [⟨this.change, slackUp this prev ++ this.lines.take
          (this.lines.length - (slackUp this prev).length)⟩]).append
    (same_keepInFront (slackUp this prev) after))
  refine SameReadings.trans ?_ (by simpa [script] using hslides)
  simpa [script, slidUp] using hends

private theorem up_nil (this : Run) (after : Script) :
    up ⟨[], this, after⟩ = ⟨[], this, after⟩ := by
  rw [up]

/-- How a change moves up depends on the run in front of it: it slides over a
kept run, drops an empty one and grows by one of its own kind. -/
theorem up_cons (prev this : Run) (rest after : Script) :
    up ⟨prev :: rest, this, after⟩ =
      if prev.change = .keep then
        if slackUp this prev ≠ [] then up (slidUp this prev rest after)
        else if prev.lines = [] then up ⟨rest, this, after⟩
        else ⟨prev :: rest, this, after⟩
      else if prev.change = this.change then
        up ⟨rest, ⟨this.change, prev.lines ++ this.lines⟩, after⟩
      else up ⟨rest, this, prev :: after⟩ := by
  rw [up]
  rfl

/-- Moving a deletion or an insertion up leaves the readings as they are. -/
private theorem up_spec (v : View) (hv : v.this.change ≠ .keep) :
    v.up.this.change = v.this.change ∧ SameReadings v.up.script v.script := by
  induction v using up.induct with
  | case1 v hbefore =>
      obtain ⟨_, this, after⟩ := v
      obtain rfl : _ = [] := hbefore
      rw [up_nil]
      exact ⟨rfl, .refl _⟩
  | case2 v prev rest hbefore hkeep slack hslack left moved ih =>
      obtain ⟨_, this, after⟩ := v
      obtain rfl : _ = prev :: rest := hbefore
      rw [up_cons, if_pos hkeep, if_pos hslack]
      exact ⟨(ih hv).1, (ih hv).2.trans (same_slidUp hkeep hslack rest after)⟩
  -- a kept run with nothing in it is no obstacle
  | case3 v prev rest hbefore hkeep slack hslack hnil ih =>
      obtain ⟨_, this, after⟩ := v
      obtain rfl : _ = prev :: rest := hbefore
      obtain ⟨change, lines⟩ := prev
      obtain rfl : change = .keep := hkeep
      obtain rfl : lines = [] := hnil
      rw [up_cons, if_pos rfl, if_neg hslack, if_pos rfl]
      refine ⟨(ih hv).1, (ih hv).2.trans ?_⟩
      simpa [script] using (same_drop .keep).within rest.reverse (this
        :: after)
  | case4 v prev rest hbefore hkeep slack hslack hlines =>
      obtain ⟨_, this, after⟩ := v
      obtain rfl : _ = prev :: rest := hbefore
      rw [up_cons, if_pos hkeep, if_neg hslack, if_neg hlines]
      exact ⟨rfl, .refl _⟩
  -- two runs of one kind meet
  | case5 v prev rest hbefore hkeep hsame ih =>
      obtain ⟨_, ⟨_, lines⟩, after⟩ := v
      obtain rfl : _ = prev :: rest := hbefore
      obtain ⟨change, linesPrev⟩ := prev
      obtain rfl : change = _ := hsame
      rw [up_cons, if_neg hkeep, if_pos rfl]
      refine ⟨(ih hv).1, (ih hv).2.trans ?_⟩
      simpa [script]
        using (same_merge _ linesPrev lines).within rest.reverse after
  -- an insertion and a deletion change places
  | case6 v prev rest hbefore hkeep hother ih =>
      obtain ⟨_, this, after⟩ := v
      obtain rfl : _ = prev :: rest := hbefore
      rw [up_cons, if_neg hkeep, if_neg hother]
      refine ⟨(ih hv).1, (ih hv).2.trans ?_⟩
      simpa [script] using
        (same_swap hv hkeep (Ne.symm hother)).within rest.reverse after

-- ---------------------------------------------------------------- down

/-- The view with the insertion moved down over its slack. -/
def slidDown (this next : Run) (before rest : Script) : View :=
  let slack := slackDown this next
  let left := next.lines.drop slack.length
  ⟨keepBehind slack before,
    ⟨this.change, this.lines.drop slack.length ++ slack⟩,
    if left = [] then rest else ⟨.keep, left⟩ :: rest⟩

/-- To slide down once changes no reading of the whole. -/
private theorem same_slidDown {this next : Run} (hkeep : next.change = .keep)
    (hslack : slackDown this next ≠ []) (before rest : Script) :
    SameReadings (slidDown this next before rest).script
      (script ⟨before, this, next :: rest⟩) := by
  have hslides := (same_slackDown hkeep hslack).within before.reverse rest
  have hends := (same_keepBehind (slackDown this next) before).append
    ((SameReadings.refl [⟨this.change, this.lines.drop
          (slackDown this next).length ++ slackDown this next⟩]).append
    (same_left (next.lines.drop (slackDown this next).length) rest))
  refine SameReadings.trans ?_ (by simpa [script] using hslides)
  simpa [script, slidDown] using hends

private theorem down_nil (before : Script) (this : Run) :
    down ⟨before, this, []⟩ = ⟨before, this, []⟩ := by
  rw [down]

/-- How a change moves down depends on the run behind it, as on the way up. -/
theorem down_cons (before rest : Script) (this next : Run) :
    down ⟨before, this, next :: rest⟩ =
      if next.change = .keep then
        if slackDown this next ≠ [] then down (slidDown this next before rest)
        else if next.lines = [] then down ⟨before, this, rest⟩
        else ⟨before, this, next :: rest⟩
      else if next.change = this.change then
        down ⟨before, ⟨this.change, this.lines ++ next.lines⟩, rest⟩
      else down ⟨next :: before, this, rest⟩ := by
  rw [down]
  rfl

/-- Moving a deletion or an insertion down leaves the readings as they
are. -/
private theorem down_spec (v : View) (hv : v.this.change ≠ .keep) :
    v.down.this.change = v.this.change
      ∧ SameReadings v.down.script v.script := by
  induction v using down.induct with
  | case1 v hafter =>
      obtain ⟨before, this, _⟩ := v
      obtain rfl : _ = [] := hafter
      rw [down_nil]
      exact ⟨rfl, .refl _⟩
  | case2 v next rest hafter hkeep slack hslack left moved ih =>
      obtain ⟨before, this, _⟩ := v
      obtain rfl : _ = next :: rest := hafter
      rw [down_cons, if_pos hkeep, if_pos hslack]
      exact ⟨(ih hv).1,
        (ih hv).2.trans (same_slidDown hkeep hslack before rest)⟩
  | case3 v next rest hafter hkeep slack hslack hnil ih =>
      obtain ⟨before, this, _⟩ := v
      obtain rfl : _ = next :: rest := hafter
      obtain ⟨change, lines⟩ := next
      obtain rfl : change = .keep := hkeep
      obtain rfl : lines = [] := hnil
      rw [down_cons, if_pos rfl, if_neg hslack, if_pos rfl]
      refine ⟨(ih hv).1, (ih hv).2.trans ?_⟩
      simpa [script]
        using (same_drop .keep).within (before.reverse ++ [this]) rest
  | case4 v next rest hafter hkeep slack hslack hlines =>
      obtain ⟨before, this, _⟩ := v
      obtain rfl : _ = next :: rest := hafter
      rw [down_cons, if_pos hkeep, if_neg hslack, if_neg hlines]
      exact ⟨rfl, .refl _⟩
  | case5 v next rest hafter hkeep hsame ih =>
      obtain ⟨before, ⟨_, lines⟩, _⟩ := v
      obtain rfl : _ = next :: rest := hafter
      obtain ⟨change, linesNext⟩ := next
      obtain rfl : change = _ := hsame
      rw [down_cons, if_neg hkeep, if_pos rfl]
      refine ⟨(ih hv).1, (ih hv).2.trans ?_⟩
      simpa [script]
        using (same_merge _ lines linesNext).within before.reverse rest
  | case6 v next rest hafter hkeep hother ih =>
      obtain ⟨before, this, _⟩ := v
      obtain rfl : _ = next :: rest := hafter
      rw [down_cons, if_neg hkeep, if_neg hother]
      refine ⟨(ih hv).1, (ih hv).2.trans ?_⟩
      simpa [script]
        using (same_swap hkeep hv hother).within before.reverse rest

end View

-- ============================================================= compact

/-- Moving one kind of runs leaves the readings as they are. -/
private theorem same_settleFrom {kind : Change} (hkind : kind ≠ .keep)
    (fuel : Nat) (before after : Script) :
    (settleFrom kind fuel before after).SameReadings
      (before.reverse ++ after) := by
  induction fuel, before, after using settleFrom.induct kind with
  | case1 before after =>
      rw [settleFrom]
      exact .refl _
  | case2 fuel before hfuel =>
      rw [settleFrom.eq_2 _ _ _ hfuel, List.append_nil]
      exact .refl _
  | case3 before fuel run rest hrun v ih =>
      rw [settleFrom, if_pos hrun]
      have hup := View.up_spec ⟨before, run, rest⟩ (by rwa [hrun])
      have hdown :=
        View.down_spec (View.up ⟨before, run, rest⟩) (by rwa [hup.1, hrun])
      refine ih.trans (Script.SameReadings.trans ?_ (hdown.2.trans hup.2))
      simpa [View.script] using .refl _
  | case4 before fuel run rest hrun ih =>
      rw [settleFrom, if_neg hrun]
      simpa using ih

/-- To settle all changes of one kind changes no reading. -/
theorem same_settle {kind : Change} (hkind : kind ≠ .keep) (s : Script) :
    (settle kind s).SameReadings s :=
  same_settleFrom hkind _ [] s

/-- In a group of changes, the deletions are the old lines and the
insertions the new ones. -/
private theorem readings_groupFrom (deleted inserted : List Text)
    (s : Script) :
    (groupFrom deleted inserted s).old = deleted ++ s.old
      ∧ (groupFrom deleted inserted s).new = inserted ++ s.new := by
  fun_induction groupFrom deleted inserted s with
  | case1 deleted inserted => simp
  | case2 deleted inserted lines rest ih => simp [ih, Run.old, Run.new]
  | case3 deleted inserted lines rest ih => simp [ih, Run.old, Run.new]
  | case4 deleted inserted lines rest ih => simp [ih, Run.old, Run.new]

/-- A script that is made compact reads as before. -/
theorem same_compact (s : Script) : (compact s).SameReadings s := by
  have hgroups := readings_groupFrom [] [] (settle .insert (settle .delete s))
  have hdeleted : (settle .delete s).SameReadings s :=
    same_settle (by decide) s
  have hinserted : (settle .insert (settle .delete s)).SameReadings
      (settle .delete s) :=
    same_settle (by decide) _
  have hsettled := hinserted.trans hdeleted
  exact ⟨hgroups.1.trans hsettled.old, hgroups.2.trans hsettled.new⟩

-- ============================================================== search

/-- What two texts have in common at their ends goes around a script for
what is between. -/
private theorem Trimmed.readings {old new : List Text} {middle : Script}
    (h : middle.old = (Trimmed.of old new).old
      ∧ middle.new = (Trimmed.of old new).new) :
    (Script.ofRun .keep (Trimmed.of old new).front ++ middle
          ++ Script.ofRun .keep (Trimmed.of old new).tail).old
        = old
      ∧ (Script.ofRun .keep (Trimmed.of old new).front ++ middle
          ++ Script.ofRun .keep (Trimmed.of old new).tail).new
        = new := by
  simp only [Script.old_append, Script.new_append, Script.old_ofRun,
    Script.new_ofRun, h, reduceCtorEq, if_false, List.append_assoc, Trimmed.of]
  rw [List.suffix_iff_eq_append.1 (commonEnd_isSuffix_left _ _),
    List.suffix_iff_eq_append.1 (commonEnd_isSuffix_right _ _),
    List.prefix_iff_eq_append.1 (commonFront_isPrefix_left old new),
    List.prefix_iff_eq_append.1 (commonFront_isPrefix_right old new)]
  exact ⟨rfl, rfl⟩

/-- The script that is found spells the texts it was looked for. -/
theorem readings_search (old new : List Text) :
    (search old new).old = old ∧ (search old new).new = new := by
  induction old, new using search.induct with
  | case1 old new t ihFront ihBehind =>
      rw [search]
      refine Trimmed.readings ?_
      split
      · -- one of the texts has no lines of its own
        simp
      · split
        · rename_i x y hsplit
          obtain ⟨holdFront, hnewFront⟩ := ihFront x y hsplit
          obtain ⟨holdBehind, hnewBehind⟩ := ihBehind x y hsplit
          rw [Script.old_append, Script.new_append, holdFront, hnewFront,
            holdBehind, hnewBehind]
          exact ⟨List.take_append_drop x _, List.take_append_drop y _⟩
        · simp [Run.old, Run.new]

end CopyrightNotice.Diff
