/-
A short script between two texts. Common lines at both ends are kept;
what is left between them is split in the middle of a shortest edit path,
and both halves are treated alike. Where nothing can be split, all old
lines are deleted and all new ones inserted.
-/
import CopyrightNotice.Diff.Snake

namespace CopyrightNotice.Diff

/-- The middle of a shortest edit path between two lists of lines, if it
leaves something on both sides. -/
def split? (old new : List Text) : Option (Nat × Nat) :=
  match (Grid.mk old.toArray new.toArray).middle? with
  | some (x, y) =>
    if x ≤ old.length ∧ y ≤ new.length ∧ 0 < x + y
        ∧ x + y < old.length + new.length then
      some (x, y)
    else none
  | none => none

private theorem bounds_of_split?_eq_some {old new : List Text} {x y : Nat}
    (h : split? old new = some (x, y)) :
    x ≤ old.length
      ∧ y ≤ new.length
      ∧ 0 < x + y
      ∧ x + y < old.length + new.length := by
  unfold split? at h
  split at h
  · split at h
    · cases h; assumption
    · cases h
  · cases h

/-- Two lists of lines without what they have in common at both ends. -/
structure Trimmed where
  front : List Text
  old : List Text
  new : List Text
  tail : List Text

/-- The lines in common in front are taken away before those at the
end. -/
def Trimmed.of (old new : List Text) : Trimmed :=
  let front := commonFront old new
  let old := old.drop front.length
  let new := new.drop front.length
  let tail := commonEnd old new
  ⟨front, old.take (old.length - tail.length),
    new.take (new.length - tail.length), tail⟩

private theorem Trimmed.length_old_le (old new : List Text) :
    (Trimmed.of old new).old.length ≤ old.length := by
  simp only [Trimmed.of, List.length_take, List.length_drop]
  omega

private theorem Trimmed.length_new_le (old new : List Text) :
    (Trimmed.of old new).new.length ≤ new.length := by
  simp only [Trimmed.of, List.length_take, List.length_drop]
  omega

/-- A script from the old lines to the new ones. -/
def search (old new : List Text) : Script :=
  let t := Trimmed.of old new
  let middle :=
    if t.old = [] ∨ t.new = []
      then Script.ofRun .delete t.old ++ Script.ofRun .insert t.new
    else match _h : split? t.old t.new with
      | some (x, y) => search (t.old.take x) (t.new.take y)
          ++ search (t.old.drop x) (t.new.drop y)
      | none => [⟨.delete, t.old⟩, ⟨.insert, t.new⟩]
  Script.ofRun .keep t.front ++ middle ++ Script.ofRun .keep t.tail
termination_by old.length + new.length
decreasing_by
  all_goals
    have hsplit := bounds_of_split?_eq_some _h
    have hold := Trimmed.length_old_le old new
    have hnew := Trimmed.length_new_le old new
    simp only [t] at hsplit
    simp only [List.length_take, List.length_drop]
    omega

end CopyrightNotice.Diff
