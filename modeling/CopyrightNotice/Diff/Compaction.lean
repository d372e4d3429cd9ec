/-
Tidying up a script. Inserted lines that repeat the kept lines beside
them can stand at either end of those; every insertion is moved up as far
as it goes and then down as far as it goes, and on its way it meets runs
of its own kind and takes them in. Deletions meet each other in the same
way, but are not moved across kept lines.

Within a group of changes, deletions are then put in front of insertions.
-/
import CopyrightNotice.Diff.Script

namespace CopyrightNotice.Diff

/-- A script with one run in view. -/
structure View where
  /-- The runs before it, the nearest first. -/
  before : Script
  this : Run
  after : Script

namespace View

/-- The kept lines, put in front of a script. -/
def keepInFront (lines : List Text) : Script → Script
  | ⟨.keep, more⟩ :: rest => ⟨.keep, lines ++ more⟩ :: rest
  | rest => ⟨.keep, lines⟩ :: rest

/-- The kept lines, put behind a reversed script. -/
def keepBehind (lines : List Text) : Script → Script
  | ⟨.keep, more⟩ :: rest => ⟨.keep, more ++ lines⟩ :: rest
  | rest => ⟨.keep, lines⟩ :: rest

/-- How far an insertion can move over the kept lines before it: the
lines that both end in. -/
def slackUp (this kept : Run) : List Text :=
  if this.change = .insert then commonEnd kept.lines this.lines else []

/-- How far an insertion can move over the kept lines after it: the lines
that both start with. -/
def slackDown (this kept : Run) : List Text :=
  if this.change = .insert then commonFront kept.lines this.lines else []

private theorem length_slackUp_le (this kept : Run) :
    (slackUp this kept).length ≤ kept.lines.length := by
  unfold slackUp
  split
  · exact (commonEnd_isSuffix_left kept.lines this.lines).length_le
  · simp

private theorem length_slackDown_le (this kept : Run) :
    (slackDown this kept).length ≤ kept.lines.length := by
  unfold slackDown
  split
  · exact (commonFront_isPrefix_left kept.lines this.lines).length_le
  · simp

/-- The run in view moved up as far as it goes. -/
def up (v : View) : View :=
  match _h : v.before with
  | [] => v
  | prev :: rest =>
    if prev.change = .keep then
      let slack := slackUp v.this prev
      if _hs : slack ≠ [] then
        let left := prev.lines.take (prev.lines.length - slack.length)
        let moved :=
          slack ++ v.this.lines.take (v.this.lines.length - slack.length)
        up ⟨if left = [] then rest else ⟨.keep, left⟩ :: rest,
          ⟨v.this.change, moved⟩, keepInFront slack v.after⟩
      else if prev.lines = [] then up ⟨rest, v.this, v.after⟩
      else v
    else if prev.change = v.this.change then
      up ⟨rest, ⟨v.this.change, prev.lines ++ v.this.lines⟩, v.after⟩
    else up ⟨rest, v.this, prev :: v.after⟩
termination_by Script.weight v.before
decreasing_by
  · have hle := length_slackUp_le v.this prev
    have hpos : 0 < (slackUp v.this prev).length := List.length_pos_iff.2 _hs
    rw [_h]
    simp only [Script.weight, List.foldr_cons]
    split <;> simp [List.length_take]
    omega
  all_goals
    rw [_h]
    simp only [Script.weight, List.foldr_cons]
    omega

/-- The run in view moved down as far as it goes. -/
def down (v : View) : View :=
  match _h : v.after with
  | [] => v
  | next :: rest =>
    if next.change = .keep then
      let slack := slackDown v.this next
      if _hs : slack ≠ [] then
        let left := next.lines.drop slack.length
        let moved := v.this.lines.drop slack.length ++ slack
        down ⟨keepBehind slack v.before, ⟨v.this.change, moved⟩,
          if left = [] then rest else ⟨.keep, left⟩ :: rest⟩
      else if next.lines = [] then down ⟨v.before, v.this, rest⟩
      else v
    else if next.change = v.this.change then
      down ⟨v.before, ⟨v.this.change, v.this.lines ++ next.lines⟩, rest⟩
    else down ⟨next :: v.before, v.this, rest⟩
termination_by Script.weight v.after
decreasing_by
  · have hle := length_slackDown_le v.this next
    have hpos : 0 < (slackDown v.this next).length := List.length_pos_iff.2 _hs
    rw [_h]
    simp only [Script.weight, List.foldr_cons]
    split <;> simp [List.length_drop]
    omega
  all_goals
    rw [_h]
    simp only [Script.weight, List.foldr_cons]
    omega

end View

/-- Moves every run of one kind, from the top down. Runs before the one
in turn are reversed. -/
def settleFrom (kind : Change) (fuel : Nat) (before after : Script) : Script :=
  match fuel, after with
  | 0, _ => before.reverse ++ after
  | _, [] => before.reverse
  | fuel + 1, run :: rest =>
    if run.change = kind then
      let v := (View.mk before run rest).up.down
      settleFrom kind fuel (v.this :: v.before) v.after
    else settleFrom kind fuel (run :: before) rest

/-- Moves every run of one kind. A run is left behind with each step, or
two become one; neither happens more often than there are runs and
lines. -/
def settle (kind : Change) (s : Script) : Script :=
  settleFrom kind ((s.weight + 1) * (s.weight + 1)) [] s

/-- The changes of a script, in groups between kept lines, deletions in
front of insertions. The lines of the group so far are given. -/
def groupFrom (deleted inserted : List Text) : Script → Script
  | [] => Script.ofRun .delete deleted ++ Script.ofRun .insert inserted
  | ⟨.delete, lines⟩ :: rest => groupFrom (deleted ++ lines) inserted rest
  | ⟨.insert, lines⟩ :: rest => groupFrom deleted (inserted ++ lines) rest
  | ⟨.keep, lines⟩ :: rest =>
    Script.ofRun .delete deleted ++ Script.ofRun .insert inserted
      ++ ⟨.keep, lines⟩ :: groupFrom [] [] rest

/-- The script tidied up. -/
def compact (s : Script) : Script :=
  groupFrom [] [] (settle .insert (settle .delete s))

end CopyrightNotice.Diff
