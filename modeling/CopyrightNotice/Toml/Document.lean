/-
Reading a TOML document: line by line a header or a key with its value,
and blanks, comments and empty lines anywhere between.

A value is read with as much fuel as the text has characters; every array
and every inline table takes a character away.
-/
import CopyrightNotice.Toml.Quoted
import CopyrightNotice.Toml.Scalar

namespace CopyrightNotice.Toml

-- ================================================ blanks and comments

/-- The text behind blanks. -/
def skipSpaces (t : Text) : Text := t.dropWhile isSpace

/-- The text behind blanks, comments and line ends. A comment has no
control characters. -/
def skipVoid? (inComment : Bool) : Text → Option Text
  | [] => some []
  | c :: rest =>
    if isNewline c then skipVoid? (inComment && c != '\n') rest
    else if inComment then
      if isPrintable c then skipVoid? true rest else none
    else if isSpace c then skipVoid? false rest
    else if c = '#' then skipVoid? true rest
    else some (c :: rest)

/-- The text behind the end of a line that has nothing more to say. -/
def skipLineEnd? (t : Text) : Option Text :=
  match skipSpaces t with
  | [] => some []
  | c :: rest =>
    if isNewline c then some (skipNewline (c :: rest))
    else if c = '#' then skipVoid? true rest
    else none

/-- Whether every carriage return stands before a line feed. -/
def returnsPaired : Text → Bool
  | '\r' :: rest => rest.head? == some '\n' && returnsPaired rest
  | _ :: rest => returnsPaired rest
  | [] => true

-- ================================================================ keys

/-- The characters of keys without quotes. -/
def isBareChar (c : Char) : Bool := c.isAlphanum || c == '_' || c == '-'

/-- One part of a key. -/
def readKeyPart? (t : Text) : Option (Text × Text) :=
  match t.span isBareChar with
  | ([], rest) => readShort? rest
  | (part, rest) => some (part, rest)

/-- The parts of a key, with dots between them. -/
def readKey? (fuel : Nat) (t : Text) : Option (List Text × Text) :=
  match fuel with
  | 0 => none
  | fuel + 1 => do
    let (part, rest) ← readKeyPart? (skipSpaces t)
    match skipSpaces rest with
    | '.' :: rest =>
      let (parts, rest) ← readKey? fuel rest
      return (part :: parts, rest)
    | rest => return ([part], rest)

-- ============================================================== values

mutual

/-- A value. -/
def readValue? (fuel : Nat) (t : Text) : Option (Value × Text) :=
  match fuel with
  | 0 => none
  | fuel + 1 =>
    match t with
    | '[' :: rest => do
      let (elements, rest) ← readElements? fuel rest
      return (.array false elements, rest)
    | '\x7b' :: rest =>
      match skipSpaces rest with
      | '\x7d' :: rest => some (.table .inline [], rest)
      | rest => do
        let (members, rest) ← readMembers? fuel [] rest
        return (.table .inline members, rest)
    | c :: _ =>
      if c == '"' || c == '\'' then do
        let (s, rest) ← readString? t
        return (.string s, rest)
      else do
        let (word, rest) := cutScalar t
        return (← scalar? word, rest)
    | [] => none

/-- The elements of an array, a comma perhaps behind the last, up to the
closing bracket. -/
def readElements? (fuel : Nat) (t : Text) : Option (List Value × Text) :=
  match fuel with
  | 0 => none
  | fuel + 1 => do
    match ← skipVoid? false t with
    | ']' :: rest => return ([], rest)
    | t =>
      let (value, rest) ← readValue? fuel t
      match ← skipVoid? false rest with
      | ']' :: rest => return ([value], rest)
      | ',' :: rest =>
        let (more, rest) ← readElements? fuel rest
        return (value :: more, rest)
      | _ => none

/-- The members of an inline table, added to those before, up to the
closing brace. All stand on one line. -/
def readMembers? (fuel : Nat) (before : Members) (t : Text) :
    Option (Members × Text) :=
  match fuel with
  | 0 => none
  | fuel + 1 => do
    let (key, rest) ← readKey? fuel t
    let '=' :: rest := rest | none
    let (value, rest) ← readValue? fuel (skipSpaces rest)
    let members ← Members.insert? value key before
    match skipSpaces rest with
    | '\x7d' :: rest => return (members, rest)
    | ',' :: rest => readMembers? fuel members rest
    | _ => none

end

-- ========================================================== statements

/-- A line that says something. -/
inductive Statement where
  | header (key : List Text)
  | element (key : List Text)
  | pair (key : List Text) (value : Value)

/-- A header of a table, behind its bracket. -/
def readHeader? (fuel : Nat) (t : Text) : Option (Statement × Text) := do
  let (key, rest) ← readKey? fuel t
  let ']' :: rest := rest | none
  return (.header key, rest)

/-- A header of an element, behind its brackets. -/
def readElementHeader? (fuel : Nat) (t : Text) :
    Option (Statement × Text) := do
  let (key, rest) ← readKey? fuel t
  let ']' :: ']' :: rest := rest | none
  return (.element key, rest)

/-- A statement. -/
def readStatement? (fuel : Nat) (t : Text) : Option (Statement × Text) :=
  match t with
  | '[' :: '[' :: rest => readElementHeader? fuel rest
  | '[' :: rest => readHeader? fuel rest
  | _ => do
    let (key, rest) ← readKey? fuel t
    let '=' :: rest := rest | none
    let (value, rest) ← readValue? fuel (skipSpaces rest)
    return (.pair key value, rest)

/-- All statements. -/
def readStatements? (fuel : Nat) (t : Text) : Option (List Statement) :=
  match fuel with
  | 0 => none
  | fuel + 1 => do
    match ← skipVoid? false t with
    | [] => return []
    | t =>
      let (statement, rest) ← readStatement? fuel t
      let rest ← skipLineEnd? rest
      return statement :: (← readStatements? fuel rest)

/-- The members of the document, built statement by statement. The keys
are those of the last header. -/
def build? (last : List Text) (ms : Members) : List Statement → Option Members
  | [] => some ms
  | .pair key value :: more => do
    build? last (← Members.descend? (Members.insert? value key) last ms) more
  | .header key :: more => do
    let name ← key.getLast?
    build? key
      (← Members.descend? (Members.openTable? name) key.dropLast ms) more
  | .element key :: more => do
    let name ← key.getLast?
    build? key
      (← Members.descend? (Members.openElement? name) key.dropLast ms) more

/-- The members of a document, if it is well formed. A byte order mark in
front of it is passed over. -/
def read? (t : Text) : Option Members := do
  let t := match t with
    | '\uFEFF' :: rest => rest
    | _ => t
  if !returnsPaired t then none
  else build? [] [] (← readStatements? (2 * t.length + 2) t)

end CopyrightNotice.Toml
