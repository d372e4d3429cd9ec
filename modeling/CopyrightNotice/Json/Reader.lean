/-
Reading JSON: the grammar and nothing beside it. Each reader takes a text
and gives what stands in front and the text behind it. Strings are
checked for their form only; whether their escapes spell a text is for
`unescape?` to say.

A value is read with as much fuel as the text has characters, and every
step into an array or an object takes a character away.
-/
import CopyrightNotice.Json.Basic

namespace CopyrightNotice.Json

/-- The blanks of JSON. -/
def isBlank (c : Char) : Bool :=
  c == ' ' || c == '\n' || c == '\t' || c == '\r'

/-- The text behind the blanks in front of it. -/
def skipBlanks (t : Text) : Text := t.dropWhile isBlank

/-- The text behind a word in front of it. -/
def skipWord? (word : Text) (t : Text) : Option Text :=
  if word.isPrefixOf t then some (t.drop word.length) else none

-- ============================================================= strings

/-- The inside of a string whose opening quote is gone. -/
def readInside? : Text → Option (Text × Text)
  | '"' :: rest => some ([], rest)
  | '\\' :: 'u' :: a :: b :: c :: d :: rest => do
    let _ ← hexQuad? a b c d
    let (written, rest) ← readInside? rest
    return ('\\' :: 'u' :: a :: b :: c :: d :: written, rest)
  | '\\' :: c :: rest => do
    let _ ← unescapeLetter? c
    let (written, rest) ← readInside? rest
    return ('\\' :: c :: written, rest)
  | c :: rest =>
    if c.toNat < firstPrintable || c == '\\' then none
    else do
      let (written, rest) ← readInside? rest
      return (c :: written, rest)
  | [] => none

-- ============================================================= numbers

/-- The digits in front of a text. -/
def takeDigits (t : Text) : Text × Text := t.span Char.isDigit

/-- At least one digit. -/
def readDigits? (t : Text) : Option (Text × Text) :=
  match takeDigits t with
  | ([], _) => none
  | (digits, rest) => some (digits, rest)

/-- The whole part of a number: a zero stands alone. -/
def readWhole? : Text → Option (Text × Text)
  | '0' :: rest =>
    match rest with
    | c :: _ => if c.isDigit then none else some (['0'], rest)
    | [] => some (['0'], rest)
  | t => readDigits? t

/-- The decimal places, if a point follows. -/
def readPlaces? : Text → Option (Text × Text)
  | '.' :: rest => do
    let (digits, rest) ← readDigits? rest
    return ('.' :: digits, rest)
  | t => some ([], t)

/-- The exponent, if its letter follows. -/
def readExponent? : Text → Option (Text × Text)
  | e :: rest =>
    if e == 'e' || e == 'E' then
      match rest with
      | s :: more =>
        if s == '+' || s == '-' then do
          let (digits, rest) ← readDigits? more
          return (e :: s :: digits, rest)
        else do
          let (digits, rest) ← readDigits? rest
          return (e :: digits, rest)
      | [] => none
    else some ([], e :: rest)
  | [] => some ([], [])

/-- A number. -/
def readNumber? (t : Text) : Option (Text × Text) := do
  let (sign, t) := match t with
    | '-' :: rest => (['-'], rest)
    | _ => ([], t)
  let (whole, t) ← readWhole? t
  let (places, t) ← readPlaces? t
  let (exponent, t) ← readExponent? t
  return (sign ++ whole ++ places ++ exponent, t)

-- ============================================================== values

mutual

/-- A value, blanks in front of it skipped. -/
def readValue? (fuel : Nat) (t : Text) : Option (Json × Text) :=
  match fuel with
  | 0 => none
  | fuel + 1 =>
    match skipBlanks t with
    | '"' :: rest => do
      let (written, rest) ← readInside? rest
      return (.string written, rest)
    | '[' :: rest =>
      match skipBlanks rest with
      | ']' :: rest => some (.array [], rest)
      | _ => do
        let (elements, rest) ← readElements? fuel rest
        return (.array elements, rest)
    | '\x7b' :: rest =>
      match skipBlanks rest with
      | '\x7d' :: rest => some (.object [], rest)
      | _ => do
        let (members, rest) ← readMembers? fuel rest
        return (.object members, rest)
    | 'n' :: rest => do return (.null, ← skipWord? "ull".toList rest)
    | 't' :: rest => do return (.bool true, ← skipWord? "rue".toList rest)
    | 'f' :: rest => do return (.bool false, ← skipWord? "alse".toList rest)
    | t => do
      let (literal, rest) ← readNumber? t
      return (.number literal, rest)

/-- Elements up to the closing bracket. -/
def readElements? (fuel : Nat) (t : Text) : Option (List Json × Text) :=
  match fuel with
  | 0 => none
  | fuel + 1 => do
    let (value, rest) ← readValue? fuel t
    match skipBlanks rest with
    | ']' :: rest => return ([value], rest)
    | ',' :: rest =>
      let (more, rest) ← readElements? fuel rest
      return (value :: more, rest)
    | _ => none

/-- Members up to the closing brace. -/
def readMembers? (fuel : Nat) (t : Text) :
    Option (List (Text × Json) × Text) :=
  match fuel with
  | 0 => none
  | fuel + 1 =>
    match skipBlanks t with
    | '"' :: rest => do
      let (key, rest) ← readInside? rest
      match skipBlanks rest with
      | ':' :: rest =>
        let (value, rest) ← readValue? fuel rest
        match skipBlanks rest with
        | '\x7d' :: rest => return ([(key, value)], rest)
        | ',' :: rest =>
          let (more, rest) ← readMembers? fuel rest
          return ((key, value) :: more, rest)
        | _ => none
      | _ => none
    | _ => none

end

/-- The value that a document holds, with blanks around it. -/
def read? (t : Text) : Option Json := do
  let (value, rest) ← readValue? (2 * t.length + 2) t
  if skipBlanks rest = [] then some value else none

end CopyrightNotice.Json
