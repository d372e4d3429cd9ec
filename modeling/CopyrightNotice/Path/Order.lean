/-
The order of paths: component by component, a directory in front of what
is in it, names by their bytes. It differs from the order of the spelled
bytes, in which `a-b` stands in front of `a/b`.
-/
import CopyrightNotice.Path.Basic

namespace CopyrightNotice

/-- Lists compared element by element, a front part first. -/
def compareLists {α : Type} (cmp : α → α → Ordering) :
    List α → List α → Ordering
  | [], [] => .eq
  | [], _ :: _ => .lt
  | _ :: _, [] => .gt
  | a :: as, b :: bs => (cmp a b).then (compareLists cmp as bs)

/-- Byte strings compared by their bytes. -/
def compareBytes : Bytes → Bytes → Ordering := compareLists compare

/-- The kinds of components in their order. -/
def Component.rank : Component → Nat
  | .root => 0
  | .here => 1
  | .up => 2
  | .name _ => 3

/-- The order of components: by kind, and names by their bytes. -/
def Component.compare : Component → Component → Ordering
  | .name m, .name n => compareBytes m n
  | c, d => Ord.compare c.rank d.rank

/-- The order of paths. -/
def Path.compare (p q : Path) : Ordering :=
  compareLists Component.compare p.components q.components

/-- Whether `p` stands in front of `q` or equals it. -/
def Path.precedes (p q : Path) : Bool := (p.compare q).isLE

end CopyrightNotice
