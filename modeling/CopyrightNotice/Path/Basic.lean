/-
Paths. A path keeps the bytes it was spelled with, for they are what is
printed; what it means is the list of its components. Repeated slashes,
a slash at the end and dots after the first component are spelling only.

A path that starts with a dot has that dot as its first component, so
that `./a` and `a` are told apart, although they lead to one place.
-/
import CopyrightNotice.Text.Utf8

namespace CopyrightNotice

/-- A path as it is spelled. -/
structure Path where
  bytes : Bytes
deriving DecidableEq, Repr, Inhabited

/-- One step of a path. -/
inductive Component where
  /-- To the top of the tree; only the first component. -/
  | root
  /-- Stay; only the first component. -/
  | here
  /-- To the parent directory. -/
  | up
  /-- To an entry of the directory. -/
  | name (bytes : Bytes)
deriving DecidableEq, Repr

namespace Path

-- ======================================================== spelled parts

/-- The byte between two parts. -/
def slash : UInt8 := 0x2F

/-- The byte `.`. -/
def dot : UInt8 := 0x2E

/-- What stands between the slashes. -/
def split : Bytes → List Bytes
  | [] => [[]]
  | b :: rest =>
    if b = slash then [] :: split rest
    else match split rest with
      | [] => [[b]]
      | part :: more => (b :: part) :: more

/-- The parts with slashes between them. -/
def unsplit (parts : List Bytes) : Bytes := [slash].intercalate parts

/-- Parts that are spelling only, behind the first component. -/
def isVoid (part : Bytes) : Bool := part == [] || part == [dot]

/-- A path from text. -/
def ofText (t : Text) : Path := ⟨Utf8.encode t⟩

/-- A path from a string. -/
def ofString (s : String) : Path := ofText s.toList

/-- The path for a reader. -/
def display (p : Path) : String := String.ofList (Utf8.display p.bytes)

/-- Whether the path starts at the top of the tree. -/
def isAbsolute (p : Path) : Bool := p.bytes.head? == some slash

/-- Whether the first part of a path is a lone dot. -/
def leadsWithDot (p : Path) : Bool := (split p.bytes).head? == some [dot]

-- ========================================================== components

/-- The component that a part spells behind the first one. -/
def component? (part : Bytes) : Option Component :=
  if isVoid part then none
  else if part = [dot, dot] then some .up
  else some (.name part)

/-- The steps of a path. -/
def components (p : Path) : List Component :=
  let steps := (split p.bytes).filterMap component?
  if p.isAbsolute then .root :: steps
  else if p.leadsWithDot then .here :: steps
  else steps

/-- Whether two paths are spellings of one list of components. -/
def sameAs (p q : Path) : Bool := p.components == q.components

/-- Whether the components of `p` start with those of `front`. -/
def startsWith (p front : Path) : Bool :=
  front.components.isPrefixOf p.components

/-- Whether a path leads to a parent directory on its way. -/
def climbs (p : Path) : Bool := p.components.contains .up

/-- The name at the end of the path. -/
def fileName? (p : Path) : Option Bytes :=
  match p.components.getLast? with
  | some (.name n) => some n
  | _ => none

/-- What stands behind the last dot of the name at the end, if there is
a dot and something in front of it. -/
def extension? (p : Path) : Option Bytes := do
  let reversed := (← p.fileName?).reverse
  let extension := reversed.takeWhile (· != dot)
  let front := (reversed.dropWhile (· != dot)).drop 1
  if front = [] then none else some extension.reverse

-- =================================================== putting together

/-- The path `q`, taken from `p`. An absolute path is taken as it is. -/
def join (p q : Path) : Path :=
  if q.isAbsolute then q
  else if p.bytes = [] || p.bytes.getLast? == some slash
    then ⟨p.bytes ++ q.bytes⟩
  else ⟨p.bytes ++ slash :: q.bytes⟩

/-- A component as a path of its own. -/
def ofComponent : Component → Path
  | .root => ⟨[slash]⟩
  | .here => ⟨[dot]⟩
  | .up => ⟨[dot, dot]⟩
  | .name n => ⟨n⟩

/-- The plain spelling of components. -/
def ofComponents (cs : List Component) : Path :=
  cs.foldl (fun p c => p.join (ofComponent c)) ⟨[]⟩

/-- The path of the directory that holds the last component, spelled as
in `p`. The top of the tree has none, nor has the empty path. -/
def parent? (p : Path) : Option Path :=
  let parts := split p.bytes
  let (front, body) :=
    if p.isAbsolute then ([slash], parts.drop 1)
    else if p.leadsWithDot then ([dot], parts.drop 1)
    else ([], parts)
  let trimmed := Text.dropEndWhile isVoid body
  match Text.dropEndWhile isVoid trimmed.dropLast with
  | [] =>
    if trimmed = [] then
      if p.leadsWithDot then some ⟨[]⟩ else none
    else some ⟨front⟩
  | kept =>
    if p.leadsWithDot then some ⟨front ++ slash :: unsplit kept⟩
    else some ⟨front ++ unsplit kept⟩

end Path

end CopyrightNotice
