/-
The four kinds of TOML strings. Each reader starts behind the opening
quotes and gives the string's text and what follows the closing quotes.
A carriage return is taken to stand before a line feed, which the
document's reader sees to.
-/
import CopyrightNotice.Json.Basic

namespace CopyrightNotice.Toml

/-- The characters that may stand in a string on one line: no control
character but the tab. -/
def isPrintable (c : Char) : Bool :=
  c == '\t' || (0x20 ≤ c.toNat && c.toNat != 0x7F)

/-- Line ends. -/
def isNewline (c : Char) : Bool := c == '\n' || c == '\r'

/-- The blanks within a line. -/
def isSpace (c : Char) : Bool := c == ' ' || c == '\t'

/-- The character that a letter stands for after a backslash. -/
def escapeLetter? (c : Char) : Option Char :=
  match c with
  | 'b' => some '\x08'
  | 't' => some '\t'
  | 'n' => some '\n'
  | 'f' => some '\x0c'
  | 'r' => some '\r'
  | '"' => some '"'
  | '\\' => some '\\'
  | _ => none

/-- The character with a code point; halves of surrogate pairs are no
characters. -/
def charOf? (n : Nat) : Option Char :=
  if n.isValidChar then some (Char.ofNat n) else none

/-- The character behind a backslash and `u` or `U`. -/
def hexChar? (digits : List Char) : Option Char := do
  let values ← digits.mapM Json.hexValue?
  charOf? (values.foldl (fun n d => n * 16 + d) 0)

/-- The text of a basic string. -/
def readBasic? : Text → Option (Text × Text)
  | '"' :: rest => some ([], rest)
  | '\\' :: 'u' :: a :: b :: c :: d :: rest => do
    let x ← hexChar? [a, b, c, d]
    let (t, rest) ← readBasic? rest
    return (x :: t, rest)
  | '\\' :: 'U' :: a :: b :: c :: d :: e :: f :: g :: h :: rest => do
    let x ← hexChar? [a, b, c, d, e, f, g, h]
    let (t, rest) ← readBasic? rest
    return (x :: t, rest)
  | '\\' :: c :: rest => do
    let x ← escapeLetter? c
    let (t, rest) ← readBasic? rest
    return (x :: t, rest)
  | c :: rest =>
    if c != '\\' && isPrintable c then do
      let (t, rest) ← readBasic? rest
      return (c :: t, rest)
    else none
  | [] => none

/-- The text of a literal string. -/
def readLiteral? : Text → Option (Text × Text)
  | '\'' :: rest => some ([], rest)
  | c :: rest =>
    if isPrintable c then do
      let (t, rest) ← readLiteral? rest
      return (c :: t, rest)
    else none
  | [] => none

/-- The text behind a line end in front of it. -/
def skipNewline : Text → Text
  | '\r' :: '\n' :: rest => rest
  | '\n' :: rest => rest
  | t => t

/-- Where the reader of a string of several lines is. -/
inductive Place where
  /-- In the text. -/
  | inside
  /-- Behind a backslash that hides the end of its line. -/
  | hiding
  /-- Among the blanks and line ends that such a backslash hides. -/
  | hidden
deriving DecidableEq

/-- Blanks behind a hiding backslash are looked at a second time once it
has ended. -/
def Place.rank : Place → Nat
  | .inside => 0
  | .hiding => 1
  | .hidden => 1

/-- The text of a basic string of several lines. Up to two quotes right
before the closing ones belong to it. -/
def readLongBasic? (p : Place) (t : Text) : Option (Text × Text) :=
  match p, t with
  | .hidden, c :: rest =>
    if isSpace c || isNewline c then readLongBasic? .hidden rest
    else readLongBasic? .inside (c :: rest)
  | .hidden, [] => none
  | .hiding, c :: rest =>
    if isSpace c || c == '\r' then readLongBasic? .hiding rest
    else if c == '\n' then readLongBasic? .hidden rest
    else none
  | .hiding, [] => none
  | .inside, '"' :: '"' :: '"' :: '"' :: '"' :: rest => some (['"', '"'], rest)
  | .inside, '"' :: '"' :: '"' :: '"' :: rest => some (['"'], rest)
  | .inside, '"' :: '"' :: '"' :: rest => some ([], rest)
  | .inside, '\\' :: 'u' :: a :: b :: c :: d :: rest => do
    let x ← hexChar? [a, b, c, d]
    let (t, rest) ← readLongBasic? .inside rest
    return (x :: t, rest)
  | .inside, '\\' :: 'U' :: a :: b :: c :: d :: e :: f :: g :: h :: rest => do
    let x ← hexChar? [a, b, c, d, e, f, g, h]
    let (t, rest) ← readLongBasic? .inside rest
    return (x :: t, rest)
  | .inside, '\\' :: c :: rest =>
    if isSpace c || isNewline c then readLongBasic? .hiding (c :: rest)
    else do
      let x ← escapeLetter? c
      let (t, rest) ← readLongBasic? .inside rest
      return (x :: t, rest)
  | .inside, c :: rest =>
    if c != '\\' && (isPrintable c || isNewline c) then do
      let (t, rest) ← readLongBasic? .inside rest
      return (c :: t, rest)
    else none
  | .inside, [] => none
termination_by 2 * t.length + p.rank
decreasing_by
  all_goals simp only [List.length_cons, Place.rank]
  all_goals omega

/-- The text of a literal string of several lines. -/
def readLongLiteral? : Text → Option (Text × Text)
  | '\'' :: '\'' :: '\'' :: '\'' :: '\'' :: rest => some (['\'', '\''], rest)
  | '\'' :: '\'' :: '\'' :: '\'' :: rest => some (['\''], rest)
  | '\'' :: '\'' :: '\'' :: rest => some ([], rest)
  | c :: rest =>
    if isPrintable c || isNewline c then do
      let (t, rest) ← readLongLiteral? rest
      return (c :: t, rest)
    else none
  | [] => none

/-- A string on one line, with its quotes. -/
def readShort? : Text → Option (Text × Text)
  | '"' :: rest => readBasic? rest
  | '\'' :: rest => readLiteral? rest
  | _ => none

/-- A string of any kind, with its quotes. -/
def readString? : Text → Option (Text × Text)
  | '"' :: '"' :: '"' :: rest => readLongBasic? .inside (skipNewline rest)
  | '\'' :: '\'' :: '\'' :: rest => readLongLiteral? (skipNewline rest)
  | t => readShort? t

end CopyrightNotice.Toml
