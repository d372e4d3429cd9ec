/-
The shortest decimal that reads back as the same double. Of a number of
digits, only the two decimals next to the value need to be tried: if any
decimal with that many digits rounds to the double, one of these does.
The first number of digits with a hit wins, and of two hits the nearer.
-/
import CopyrightNotice.Decimal.Exact

namespace CopyrightNotice.Decimal

/-- The number `0.digits * 10 ^ point`, its first digit not zero. -/
structure Scientific where
  digits : Text
  point : Int
deriving DecidableEq, Repr

namespace Exact

variable (v : Exact)

/-- The place of the decimal point: `10 ^ (point - 1) ≤ num / den` and
`num / den < 10 ^ point`. The number of zeros behind the point is looked
for among the first `zeros`. -/
def pointOf (num den : Nat) (zeros : Nat) : Int :=
  if den ≤ num then (Text.ofNat (num / den)).length
  else match zeros with
    | 0 => 0
    | zeros + 1 => if den ≤ 10 * num then 0
        else pointOf (10 * num) den zeros - 1

/-- More zeros than any double has behind its point. -/
def maxZeros : Nat := 400

/-- Four times the distance to the doubles next to `v` that still rounds
to it, in units of the last bit: below, where the grid may be finer, and
above. -/
def reach : Nat × Nat :=
  (if v.mantissa = fullMantissa ∧ minExponent < v.exponent then 1 else 2, 2)

/-- Whether `count` units of `10 ^ unit` round to `v`. The ends of the
interval do if the mantissa is even. -/
def isReadFrom (count : Nat) (unit : Int) : Bool :=
  let decimal := 4 * count * Nat.pow 10 unit.toNat * v.scaleDown
  let scale := v.scaleUp * Nat.pow 10 (-unit).toNat
  let low := (4 * v.mantissa - v.reach.1) * scale
  let high := (4 * v.mantissa + v.reach.2) * scale
  if v.mantissa % 2 = 0 then low ≤ decimal && decimal ≤ high
  else low < decimal && decimal < high

/-- The decimal next to `v` in units of `10 ^ unit` that rounds to `v`, if
one does: the nearer of two. -/
def nearest? (unit : Int) : Option Nat :=
  let num := v.mantissa * v.scaleUp * Nat.pow 10 (-unit).toNat
  let den := v.scaleDown * Nat.pow 10 unit.toNat
  let below := num / den
  let nearer := roundHalfEven num den
  let other := if nearer = below then below + 1 else below
  if v.isReadFrom nearer unit then some nearer
  else if v.isReadFrom other unit then some other
  else none

/-- The first hit from `digits` digits on, and its unit. Seventeen digits
tell all doubles apart. -/
def firstHit (point : Int) (digits : Nat) : Nat → Nat × Int
  | 0 => (0, 0)
  | tries + 1 =>
    match v.nearest? (point - digits) with
    | some count => (count, point - digits)
    | none => firstHit point (digits + 1) tries

/-- The shortest decimal that reads back as `v`, for a value that is not
zero. -/
def shortest : Scientific :=
  let point := pointOf (v.mantissa * v.scaleUp) v.scaleDown maxZeros
  let (count, unit) := v.firstHit point 1 17
  let written := Text.ofNat count
  ⟨Text.dropEndWhile (· == '0') written, written.length + unit⟩

end Exact

namespace Scientific

/-- Where positional notation ends: numbers with more digits in front of
the point, or more zeros behind it, have an exponent. -/
def maxPoint : Int := 16
def minPoint : Int := -4

/-- The number as it is written: always with a point or an exponent. -/
def render (s : Scientific) : Text :=
  let n : Int := s.digits.length
  let zeros := fun k : Int => List.replicate k.toNat '0'
  if 0 < s.point && s.point ≤ maxPoint then
    if n ≤ s.point then s.digits ++ zeros (s.point - n) ++ ['.', '0']
    else s.digits.take s.point.toNat ++ '.' :: s.digits.drop s.point.toNat
  else if minPoint ≤ s.point && s.point ≤ 0 then
    '0' :: '.' :: zeros (-s.point) ++ s.digits
  else
    let fraction := if n = 1 then [] else '.' :: s.digits.drop 1
    s.digits.take 1 ++ fraction ++ 'e' :: Text.ofInt (s.point - 1)

end Scientific

/-- A value as the shortest decimal that reads back as it. -/
def render (v : Exact) : Text :=
  if v.mantissa = 0 then ['0', '.', '0'] else v.shortest.render

end CopyrightNotice.Decimal
