/-
Numbers in decimal, from their exact values. A double is a whole number
times a power of two; nothing here computes with doubles themselves, so
every digit is decided in exact arithmetic.
-/
import CopyrightNotice.Text.Basic

namespace CopyrightNotice

/-- The decimal digits of a whole number. -/
def Text.ofNat (n : Nat) : Text := Nat.toDigits 10 n

/-- A whole number in decimal, with a sign if it is negative. -/
def Text.ofInt : Int → Text
  | .ofNat n => Text.ofNat n
  | .negSucc n => '-' :: Text.ofNat (n + 1)

namespace Decimal

/-- The value `mantissa * 2 ^ exponent` of a double that is not
negative. -/
structure Exact where
  mantissa : Nat
  exponent : Int
deriving DecidableEq, Repr

namespace Exact

/-- The mantissas that make use of all their bits start here. -/
def fullMantissa : Nat := Nat.pow 2 52

/-- The exponent of the smallest doubles. -/
def minExponent : Int := -1074

/-- The value of a double. -/
def ofFloat (x : Float) : Exact :=
  let bits := x.toBits.toNat
  let fraction := bits % fullMantissa
  match bits / fullMantissa % 2048 with
  | 0 => ⟨fraction, minExponent⟩
  | e + 1 => ⟨fraction + fullMantissa, minExponent + e⟩

/-- `2 ^ exponent` as a fraction: the numerator. -/
def scaleUp (v : Exact) : Nat := Nat.pow 2 v.exponent.toNat

/-- `2 ^ exponent` as a fraction: the denominator. -/
def scaleDown (v : Exact) : Nat := Nat.pow 2 (-v.exponent).toNat

end Exact

/-- The whole number nearest to a fraction, the even one of two. -/
def roundHalfEven (num den : Nat) : Nat :=
  let q := num / den
  let r := num % den
  if den < 2 * r || (2 * r == den && q % 2 == 1) then q + 1 else q

/-- A value with two decimal places. -/
def twoPlaces (v : Exact) : Text :=
  let hundredths := roundHalfEven (v.mantissa * v.scaleUp * 100) v.scaleDown
  let cents := hundredths % 100
  Text.ofNat (hundredths / 100) ++ '.' :: Text.ofNat (cents / 10)
    ++ Text.ofNat (cents % 10)

end Decimal

end CopyrightNotice
