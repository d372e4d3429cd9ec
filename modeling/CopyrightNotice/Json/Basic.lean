/-
JSON documents as they are written. Numbers keep their digits and strings
their escapes, so that a document says exactly what was read or will be
printed. `escape` and `unescape?` pass between a text and the inside of
its string.
-/
import CopyrightNotice.Decimal.Exact

namespace CopyrightNotice

/-- A JSON value. A string, and the name of a member, is what stands
between its quotes. -/
inductive Json where
  | null
  | bool (b : Bool)
  | number (literal : Text)
  | string (written : Text)
  | array (elements : List Json)
  | object (members : List (Text × Json))
deriving Repr

namespace Json

-- ============================================================ escaping

/-- The hexadecimal digit of a number below sixteen. -/
def hexDigit (n : Nat) : Char := "0123456789abcdef".toList.getD n '0'

/-- The value of a hexadecimal digit. -/
def hexValue? (c : Char) : Option Nat :=
  let n := c.toNat
  if 0x30 ≤ n ∧ n ≤ 0x39 then some (n - 0x30)
  else if 0x41 ≤ n ∧ n ≤ 0x46 then some (n - 0x41 + 10)
  else if 0x61 ≤ n ∧ n ≤ 0x66 then some (n - 0x61 + 10)
  else none

/-- The first character after the control characters. -/
def firstPrintable : Nat := 0x20

/-- A character inside a string. Quotes, backslashes and control
characters are escaped, with a letter where there is one. -/
def escapeChar (c : Char) : Text :=
  if c = '"' then ['\\', '"']
  else if c = '\\' then ['\\', '\\']
  else if c = '\x08' then ['\\', 'b']
  else if c = '\x0c' then ['\\', 'f']
  else if c = '\n' then ['\\', 'n']
  else if c = '\r' then ['\\', 'r']
  else if c = '\t' then ['\\', 't']
  else if c.toNat < firstPrintable then
    ['\\', 'u', '0', '0', hexDigit (c.toNat / 16), hexDigit (c.toNat % 16)]
  else [c]

/-- A text inside a string. -/
def escape (t : Text) : Text := t.flatMap escapeChar

/-- The character that a letter stands for after a backslash. -/
def unescapeLetter? (c : Char) : Option Char :=
  match c with
  | '"' => some '"'
  | '\\' => some '\\'
  | '/' => some '/'
  | 'b' => some '\x08'
  | 'f' => some '\x0c'
  | 'n' => some '\n'
  | 'r' => some '\r'
  | 't' => some '\t'
  | _ => none

/-- The number that four hexadecimal digits spell. -/
def hexQuad? (a b c d : Char) : Option Nat := do
  return (← hexValue? a) * 4096 + (← hexValue? b) * 256 + (← hexValue? c) * 16
    + (← hexValue? d)

/-- The first halves of surrogate pairs, and the second ones. -/
def isHighHalf (n : Nat) : Bool := 0xD800 ≤ n && n ≤ 0xDBFF
def isLowHalf (n : Nat) : Bool := 0xDC00 ≤ n && n ≤ 0xDFFF

/-- The text that the inside of a string spells. Half of a surrogate pair
alone spells none. -/
def unescape? : Text → Option Text
  | '\\' :: 'u' :: a :: b :: c :: d :: rest => do
    let n ← hexQuad? a b c d
    if isLowHalf n then none
    else if isHighHalf n then
      match rest with
      | '\\' :: 'u' :: e :: f :: g :: h :: rest => do
        let m ← hexQuad? e f g h
        if !isLowHalf m then none
        else
          let whole := 0x10000 + (n - 0xD800) * 1024 + (m - 0xDC00)
          return Char.ofNat whole :: (← unescape? rest)
      | _ => none
    else return Char.ofNat n :: (← unescape? rest)
  | '\\' :: c :: rest => do return (← unescapeLetter? c) :: (← unescape? rest)
  | ['\\'] => none
  | c :: rest => do return c :: (← unescape? rest)
  | [] => some []

-- ======================================================== construction

/-- The string that spells a text. -/
def ofText (t : Text) : Json := .string (escape t)

/-- A whole number. -/
def ofNat (n : Nat) : Json := .number (Text.ofNat n)

/-- A whole number with its sign. -/
def ofInt (n : Int) : Json := .number (Text.ofInt n)

/-- The text that a string spells. -/
def text? : Json → Option Text
  | .string written => unescape? written
  | _ => none

end Json

end CopyrightNotice
