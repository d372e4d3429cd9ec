/-
Numbers, dates and the words for truth in TOML documents. Nothing here is
computed from them; what matters is which spellings are well formed, and
that a number is not past what a reader can hold.
-/
import CopyrightNotice.Toml.Value

namespace CopyrightNotice.Toml

/-- The characters of numbers, dates and words. -/
def isScalarChar (c : Char) : Bool :=
  c.isAlphanum || c == '_' || c == '+' || c == '-' || c == '.' || c == ':'

-- ============================================================= numbers

/-- The text without its sign, and whether there was one. -/
def cutSign : Text → Text × Bool
  | '+' :: rest => (rest, true)
  | '-' :: rest => (rest, true)
  | t => (t, false)

/-- The digits of a run in which single underscores may stand between
digits. -/
def digitRun? (isDigit : Char → Bool) : Text → Option Text
  | [] => none
  | [c] => if isDigit c then some [c] else none
  | c :: '_' :: rest => if isDigit c then (digitRun? isDigit rest).map (c :: ·)
      else none
  | c :: rest => if isDigit c then (digitRun? isDigit rest).map (c :: ·)
      else none

/-- The value of digits in a base of at most sixteen. -/
def digitsValue (base : Nat) (digits : Text) : Nat :=
  digits.foldl (fun n c => n * base + digitValue c) 0
where
  /-- The value of one digit. -/
  digitValue (c : Char) : Nat :=
    if c.isDigit then c.toNat - 0x30
    else if c.isLower then c.toNat - 0x61 + 10
    else c.toNat - 0x41 + 10

/-- The digits of a base, by the letter that announces it. -/
def baseOf? : Char → Option (Nat × (Char → Bool))
  | 'x' => some (16, fun c =>
      c.isDigit || ('a' ≤ c && c ≤ 'f') || ('A' ≤ c && c ≤ 'F'))
  | 'o' => some (8, fun c => '0' ≤ c && c ≤ '7')
  | 'b' => some (2, fun c => c == '0' || c == '1')
  | _ => none

/-- The whole part of a decimal number: no zero in front of other
digits. -/
def wholePart? (t : Text) : Option Text := do
  let digits ← digitRun? Char.isDigit t
  match digits with
  | '0' :: _ :: _ => none
  | _ => some digits

/-- Whole numbers are held in 128 bits, with a sign or without. -/
def isIntegerRange (negative : Bool) (n : Nat) : Bool :=
  if negative then n ≤ Nat.pow 2 127 else n < Nat.pow 2 128

/-- Whether the text is a whole number that can be held. -/
def isInteger (t : Text) : Bool :=
  match t with
  | '0' :: letter :: digits =>
    match baseOf? letter with
    | some (base, isDigit) =>
      match digitRun? isDigit digits with
      | some digits => isIntegerRange false (digitsValue base digits)
      | none => false
    | none => false
  | _ =>
    let (unsigned, _) := cutSign t
    match wholePart? unsigned with
    | some digits =>
        isIntegerRange (t.head? == some '-') (digitsValue 10 digits)
    | none => false

/-- From here on a number rounds to infinity: the largest double and half
a unit in its last place. -/
def infiniteFrom : Nat := Nat.pow 2 1024 - Nat.pow 2 970

/-- Whether `digits * 10 ^ exponent` is past the doubles. -/
def isInfinite (digits : Text) (exponent : Int) : Bool :=
  let digits := digits.dropWhile (· == '0')
  let magnitude := exponent + digits.length
  if digits = [] || magnitude < 300 then false
  else if 400 < magnitude then true
  else
    infiniteFrom * Nat.pow 10 (-exponent).toNat
      ≤ digitsValue 10 digits * Nat.pow 10 exponent.toNat

/-- The exponent behind its letter. -/
def exponent? (t : Text) : Option Int := do
  let (unsigned, _) := cutSign t
  let digits ← digitRun? Char.isDigit unsigned
  let n : Int := digitsValue 10 digits
  return if t.head? == some '-' then -n else n

/-- Whether the text is a number with a point or an exponent that a
double can hold. -/
def isFloat (t : Text) : Bool :=
  let (unsigned, _) := cutSign t
  if unsigned == "inf".toList || unsigned == "nan".toList then true
  else
    let (decimal, tail) := unsigned.span fun c => c != 'e' && c != 'E'
    let (whole, places) := decimal.span (· != '.')
    let read : Option Bool := do
      let whole ← wholePart? whole
      let places ← match places with
        | [] => some []
        | _ :: digits => digitRun? Char.isDigit digits
      let exponent ← match tail with
        | [] => if places = [] then none else some 0
        | _ :: exponent => exponent? exponent
      return !isInfinite (whole ++ places) (exponent - places.length)
    read.getD false

-- =============================================================== dates

/-- The value of two digits in front of a text, and what follows. -/
def twoDigits? : Text → Option (Nat × Text)
  | a :: b :: rest =>
    if a.isDigit && b.isDigit then some (digitsValue 10 [a, b], rest) else none
  | _ => none

/-- The days of a month. -/
def daysIn (year month : Nat) : Nat :=
  if month == 2 then
    if year % 4 == 0 && (year % 100 != 0 || year % 400 == 0) then 29 else 28
  else if month == 4 || month == 6 || month == 9 || month == 11 then 30
  else 31

/-- What follows a date in front of a text. -/
def skipDate? (t : Text) : Option Text := do
  let (century, t) ← twoDigits? t
  let (year, t) ← twoDigits? t
  let '-' :: t := t | none
  let (month, t) ← twoDigits? t
  let '-' :: t := t | none
  let (day, t) ← twoDigits? t
  if 1 ≤ month && month ≤ 12 && 1 ≤ day && day
    ≤ daysIn (century * 100 + year) month then some t
  else none

/-- What follows a time of day in front of a text. A minute may have a
leap second. -/
def skipTime? (t : Text) : Option Text := do
  let (hour, t) ← twoDigits? t
  let ':' :: t := t | none
  let (minute, t) ← twoDigits? t
  let ':' :: t := t | none
  let (second, t) ← twoDigits? t
  if !(hour ≤ 23 && minute ≤ 59 && second ≤ 60) then none
  else match t with
    | '.' :: digits =>
      match digits.span Char.isDigit with
      | ([], _) => none
      | (_, t) => some t
    | _ => some t

/-- Whether the text is empty or the offset of a time zone. -/
def isOffset (t : Text) : Bool :=
  match t with
  | [] | ['Z'] | ['z'] => true
  | sign :: t =>
    let read : Option Bool := do
      let (hour, t) ← twoDigits? t
      let ':' :: t := t | none
      let (minute, t) ← twoDigits? t
      return t == [] && hour ≤ 23 && minute ≤ 59
    (sign == '+' || sign == '-') && read.getD false

/-- Whether the text is a date, a time, or both, then perhaps with an
offset. -/
def isMoment (t : Text) : Bool :=
  match skipDate? t with
  | some [] => true
  | some (mark :: rest) =>
    (mark == 'T' || mark == 't' || mark == ' ') &&
      match skipTime? rest with
      | some rest => isOffset rest
      | none => false
  | none => skipTime? t == some []

-- ============================================================= scalars

/-- The scalar in front of a text. A blank may stand between a date and a
time. -/
def cutScalar (t : Text) : Text × Text :=
  let (word, rest) := t.span isScalarChar
  match skipDate? word, rest with
  | some [], ' ' :: c :: more =>
    if c.isDigit then
      let (time, rest) := (c :: more).span isScalarChar
      (word ++ ' ' :: time, rest)
    else (word, rest)
  | _, _ => (word, rest)

/-- The value that a scalar spells. -/
def scalar? (word : Text) : Option Value :=
  if word == "true".toList || word == "false".toList then some .boolean
  else if isInteger word || isFloat word then some .number
  else if isMoment word then some .moment
  else none

end CopyrightNotice.Toml
