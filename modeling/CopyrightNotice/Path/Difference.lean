/-
The way from one path to another, by their components alone.
-/
import CopyrightNotice.Path.Basic

namespace CopyrightNotice.Path

/-- The way to `target` from where `base` has left its common steps:
up once for every step that `base` still has, then down. A step up in
`base` cannot be taken back. -/
def wayFrom : (base target : List Component) → Option (List Component)
  | [], target => some target
  | _ :: base, [] => (wayFrom base []).map (.up :: ·)
  | .here :: base, t :: target => (wayFrom base target).map (t :: ·)
  | .up :: _, _ :: _ => none
  | _ :: base, t :: target =>
      some (.up :: base.map (fun _ => .up) ++ t :: target)

/-- The way from `base` to `target`, common first steps left out. -/
def way : (base target : List Component) → Option (List Component)
  | b :: base, t :: target =>
    if t = b then way base target else wayFrom (b :: base) (t :: target)
  | base, target => wayFrom base target

/-- The path that leads from `base` to `target`. From a relative path
none leads to an absolute one but that path itself, and from an absolute
path none leads to a relative one. -/
def difference? (base target : Path) : Option Path :=
  if target.isAbsolute == base.isAbsolute then
    (way base.components target.components).map ofComponents
  else if target.isAbsolute then some target
  else none

end CopyrightNotice.Path
