/-
The middle of a shortest edit path. Two fronts move over the grid of old
and new lines, one from the start and one from the end; after `d` rounds
each has the furthest points that `d` single-line changes reach, one for
every diagonal. Where the fronts meet, the problem falls into two halves.

The rounds go on until `d` is half the number of lines, by when the
fronts have met. Whatever point is found, splitting both texts there is
sound; the search decides only how short the script becomes.
-/
import CopyrightNotice.Diff.Script

namespace CopyrightNotice.Diff

/-- The old and the new lines of a problem. -/
structure Grid where
  old : Array Text
  new : Array Text

/-- The furthest point of a front on each diagonal; a diagonal is the
number of old lines less that of new ones. -/
structure Front where
  reached : Array Nat
  /-- The place of diagonal zero. -/
  middle : Nat

namespace Front

/-- A front that has not moved, for diagonals up to `middle` both ways. -/
def still (middle : Nat) : Front :=
  ⟨Array.replicate (2 * middle + 1) 0, middle⟩

/-- The furthest point on a diagonal. -/
def get (f : Front) (k : Int) : Nat := f.reached.getD (k + f.middle).toNat 0

/-- The front with another point on a diagonal. -/
def set (f : Front) (k : Int) (x : Nat) : Front :=
  { f with reached := f.reached.setIfInBounds (k + f.middle).toNat x }

/-- The point that one more change leads to on a diagonal, from the
further of the two beside it. -/
def next (f : Front) (d : Nat) (k : Int) : Nat :=
  if k = -d ∨ (k ≠ d ∧ f.get (k - 1) < f.get (k + 1)) then f.get (k + 1)
    else f.get (k - 1) + 1

end Front

namespace Grid

variable (g : Grid)

/-- How many lines from a point on are equal, going down both texts. -/
def equalAfter (x y : Nat) : Nat :=
  if h : x < g.old.size ∧ y < g.new.size then
    if g.old[x] = g.new[y] then equalAfter (x + 1) (y + 1) + 1 else 0
  else 0
termination_by g.old.size - x

/-- How many lines are equal, going up both texts, with `x` old and `y`
new lines already behind. -/
def equalBefore (x y : Nat) : Nat :=
  if h : x < g.old.size ∧ y < g.new.size then
    have : g.old.size - 1 - x < g.old.size := by omega
    have : g.new.size - 1 - y < g.new.size := by omega
    if g.old[g.old.size - 1 - x] = g.new[g.new.size - 1 - y] then
      equalBefore (x + 1) (y + 1) + 1
    else 0
  else 0
termination_by g.old.size - x

/-- The diagonal of the end. -/
def delta : Int := g.old.size - g.new.size

/-- The diagonals of a round, from the highest down. -/
def diagonals (d : Nat) : List Int :=
  (List.range (d + 1)).map fun i : Nat => (d : Int) - 2 * (i : Int)

/-- The forward front moved along the given diagonals, or the point where
it meets the other one. -/
def forward (d : Nat) (front back : Front) :
    List Int → Except (Nat × Nat) Front
  | [] => .ok front
  | k :: more =>
    let x := front.next d k
    let y := (x - k).toNat
    let far := x + g.equalAfter x y
    let facing := g.delta - k
    if g.delta % 2 ≠ 0 ∧ facing.natAbs + 1 ≤ d
        ∧ g.old.size ≤ far + back.get facing then
      .error (x, y)
    else forward d (front.set k far) back more

/-- The backward front moved along the given diagonals, or the point
where it meets the other one. -/
def backward (d : Nat) (front back : Front) :
    List Int → Except (Nat × Nat) Front
  | [] => .ok back
  | k :: more =>
    let x := back.next d k
    let y := (x - k).toNat
    let run := g.equalBefore x y
    let far := x + run
    let facing := g.delta - k
    if g.delta % 2 = 0 ∧ facing.natAbs ≤ d
        ∧ g.old.size ≤ far + front.get facing then
      .error (g.old.size - far, g.new.size - (y + run))
    else backward d front (back.set k far) more

/-- The point where the fronts meet, looked for in the given number of
rounds from round `d` on. -/
def meeting? (d : Nat) (front back : Front) : Nat → Option (Nat × Nat)
  | 0 => none
  | rounds + 1 =>
    match g.forward d front back (diagonals d) with
    | .error point => some point
    | .ok front =>
      match g.backward d front back (diagonals d) with
      | .error point => some point
      | .ok back => meeting? (d + 1) front back rounds

/-- The point in the middle of a shortest edit path. -/
def middle? : Option (Nat × Nat) :=
  let rounds := (g.old.size + g.new.size + 1) / 2 + 1
  let still := Front.still (rounds + 1)
  g.meeting? 0 still still rounds

end Grid

end CopyrightNotice.Diff
