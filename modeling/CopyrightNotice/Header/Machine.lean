/-
The search for a header, one line at a time. `Recognizer.step` takes a
state and a line, and answers with the next state and what the line
settled: which lines, this one or lines held back before, belong before,
into or after the header, and where the header first differs from the
expected one.

# Lines held back

An opening line alone is no header, nor is a first line of the notice
that no second line follows. Such lines are held in the state until the
next line settles them. A line that turns held lines into ordinary text
is itself looked at afresh.

# After a difference

The first difference decides that the header is stale, but not where it
ends; the search goes on for its last line.
-/
import CopyrightNotice.Header.Opener
import CopyrightNotice.Notice.Header

namespace CopyrightNotice

open Text (content)

/-- A line of a header and what should stand there. -/
structure Mismatch where
  actual : Text
  expected : Text
deriving DecidableEq, Repr

/-- What is known about a file's header after some of its lines. -/
inductive Search where
  /-- No header so far. -/
  | scanning
  /-- The held line may open a header. -/
  | marker (held : List Text)
  /-- The held lines end in the first line of the notice. -/
  | opener (held : List Text)
  /-- The header has agreed so far; the line of the body at this place is
  next. -/
  | comparing (next : Nat)
  /-- The header differs, and may go on. -/
  | draining
  /-- The header is the expected one, and over. -/
  | matched
  /-- The header differs, and is over. -/
  | differed
deriving DecidableEq, Repr

/-- What a line settles. -/
inductive Effect where
  | before (line : Text)
  | header (line : Text)
  | after (line : Text)
  | mismatch (m : Mismatch)
deriving DecidableEq, Repr

/-- The answer to one line. -/
structure Transition where
  next : Search
  effects : List Effect
deriving DecidableEq, Repr

/-- What a search concludes about a file. -/
inductive Verdict where
  /-- The header is the expected one. -/
  | current
  /-- There is a header, and it differs. -/
  | stale
  /-- There is no header. -/
  | missing
deriving DecidableEq, Repr

/-- The word for a verdict. -/
def Verdict.word : Verdict → String
  | .current => "ok"
  | .stale => "out-of-date"
  | .missing => "missing"

/-- The lines that a state holds back. -/
def Search.held : Search → List Text
  | .marker held => held
  | .opener held => held
  | _ => []

/-- A search for one header in files of one format. -/
structure Recognizer where
  format : CommentFormat
  header : Header

namespace Recognizer

variable (r : Recognizer)

/-- The search for a notice in files of a format. -/
def ofNotice (notice : Notice) (format : CommentFormat) : Recognizer :=
  ⟨format, notice.render format⟩

/-- Whether a line may be the opening line of a header. -/
def isMarker (line : Text) : Bool :=
  match r.header.opening with
  | none => false
  | some opening => CommentFormat.isMarkerLine opening (content line)

/-- The line against the body's line at a place; past the end nothing is
expected. -/
def mismatchAt (line : Text) (place : Nat) : Effect :=
  .mismatch ⟨Text.trim (content line),
    Text.trim (r.header.body[place]?.getD [])⟩

/-- What is wrong with the opening line, when the notice's first line
comes under the held lines: it is missing or a different one. -/
def openingFault? (held : List Text) (line : Text) : Option Mismatch :=
  match r.header.opening with
  | none => none
  | some opening =>
    let first := content (held.headD line)
    if !held.isEmpty && first == opening then none
    else some ⟨Text.trim first, Text.trim opening⟩

/-- A line with no header above it, save what the held lines began. -/
def scan (held : List Text) (line : Text) : Transition :=
  let seen := held ++ [line]
  if held.isEmpty && r.isMarker line then ⟨.marker seen, []⟩
  else if !r.format.isOpener line then ⟨.scanning, seen.map .before⟩
  else match r.openingFault? held line with
    | some fault => ⟨.draining, seen.map .header ++ [.mismatch fault]⟩
    | none =>
      if content line ≠ r.header.body.head r.header.body_ne_nil then
        ⟨.draining, seen.map .header ++ [r.mismatchAt line 0]⟩
      else if r.header.body.length = 1 then ⟨.comparing 1, seen.map .header⟩
      else ⟨.opener seen, []⟩

/-- The held lines are ordinary text, and the line is looked at afresh. -/
def release (held : List Text) (line : Text) : Transition :=
  let fresh := r.scan [] line
  ⟨fresh.next, held.map .before ++ fresh.effects⟩

/-- The line below the notice's first line. One that is neither the
second line nor a comment shows that the first was ordinary text. -/
def second (held : List Text) (line : Text) : Transition :=
  let seen := held ++ [line]
  if r.header.body[1]? = some (content line) then ⟨.comparing 2,
    seen.map .header⟩
  else if r.format.isContinuation line then
    ⟨.draining, seen.map .header ++ [r.mismatchAt line 1]⟩
  else r.release held line

/-- A line of a header that differs: its last line, a line of it, or the
first line below. -/
def drain (line : Text) : Transition :=
  if r.format.isEnd line then ⟨.differed, [.header line]⟩
  else if r.format.isContinuation line then ⟨.draining, [.header line]⟩
  else ⟨.differed, [.after line]⟩

/-- A line against the body's line at a place; past the end a header is
over if nothing extends it. -/
def compare (place : Nat) (line : Text) : Transition :=
  if r.header.body.length ≤ place then
    if r.format.isTerminator line then ⟨.matched, [.header line]⟩
    else ⟨.differed, [.after line]⟩
  else if r.header.body[place]? = some (content line) then
    ⟨.comparing (place + 1), [.header line]⟩
  else
    let rest := r.drain line
    ⟨rest.next, r.mismatchAt line place :: rest.effects⟩

/-- One line. -/
def step : Search → Text → Transition
  | .scanning, line => r.scan [] line
  | .marker held, line =>
    if r.format.isOpener line then r.scan held line else r.release held line
  | .opener held, line => r.second held line
  | .comparing place, line => r.compare place line
  | .draining, line => r.drain line
  | .matched, line => ⟨.matched, [.after line]⟩
  | .differed, line => ⟨.differed, [.after line]⟩

/-- All lines in turn: what they settle, in order, and the state at the
end. -/
def run (s : Search) : List Text → List Effect × Search
  | [] => ([], s)
  | line :: more =>
    let t := r.step s line
    let (effects, last) := run t.next more
    (t.effects ++ effects, last)

end Recognizer

/-- What the state after the last line means for the file. -/
def Search.verdict : Search → Verdict
  | .scanning | .marker _ | .opener _ => .missing
  | .comparing _ | .draining | .differed => .stale
  | .matched => .current

end CopyrightNotice
