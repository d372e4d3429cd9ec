/-
Values of TOML documents, and the rules by which statements build up
tables. A table remembers how it came about, for that decides what may
still be added to it.

- An inline table is complete as it stands.
- A dotted key makes the tables on its way; later dotted keys may add to
  them, headers may only go through them.
- A header makes the tables on its way too, and those may get a header of
  their own later.
- A table with its own header gets no second one.
-/
import CopyrightNotice.Text.Basic

namespace CopyrightNotice.Toml

/-- How a table came about. -/
inductive Origin where
  | inline
  | dotted
  | implied
  | header
deriving DecidableEq, Repr

/-- A value. Numbers and dates are kept no further than to know that they
are well formed. -/
inductive Value where
  | string (t : Text)
  | number
  | boolean
  | moment
  /-- An array; of tables if headers made it. -/
  | array (ofTables : Bool) (elements : List Value)
  | table (origin : Origin) (members : List (Text × Value))
deriving Repr

/-- The members of a table in the order they came. -/
abbrev Members := List (Text × Value)

namespace Members

/-- The members with another value for a key that is there. -/
def replace (ms : Members) (key : Text) (v : Value) : Members :=
  ms.map fun (k, old) => if k = key then (k, v) else (k, old)

/-- Adds a value under a key of one or more parts. The tables on the way
are dotted ones; a table that a header implied may be passed through, but
not be added to. -/
def insert? (v : Value) : List Text → Members → Option Members
  | [], _ => none
  | [key], ms => if (ms.lookup key).isSome then none
      else some (ms ++ [(key, v)])
  | key :: rest, ms =>
    match ms.lookup key with
    | none => do
      let inner ← insert? v rest []
      return ms ++ [(key, .table .dotted inner)]
    | some (.table origin inner) =>
      if origin = .dotted ∨ (origin = .implied ∧ 1 < rest.length) then do
        let inner ← insert? v rest inner
        return replace ms key (.table origin inner)
      else none
    | some _ => none

/-- Changes the table that a header's keys lead to. Tables that are not
there are implied, and of an array of tables the last one is meant. -/
def descend? (change : Members → Option Members) :
    List Text → Members → Option Members
  | [], ms => change ms
  | key :: rest, ms =>
    match ms.lookup key with
    | none => do
      let inner ← descend? change rest []
      return ms ++ [(key, .table .implied inner)]
    | some (.table .inline _) => none
    | some (.table origin inner) => do
      let inner ← descend? change rest inner
      return replace ms key (.table origin inner)
    | some (.array true elements) =>
      match elements.getLast? with
      | some (.table origin inner) => do
        let inner ← descend? change rest inner
        return replace ms key (.array true (elements.dropLast
          ++ [.table origin inner]))
      | _ => none
    | some _ => none

/-- Gives a table its header. -/
def openTable? (key : Text) (ms : Members) : Option Members :=
  match ms.lookup key with
  | none => some (ms ++ [(key, .table .header [])])
  | some (.table .implied inner) =>
      some (replace ms key (.table .header inner))
  | some _ => none

/-- Adds an empty table to an array of tables. -/
def openElement? (key : Text) (ms : Members) : Option Members :=
  match ms.lookup key with
  | none => some (ms ++ [(key, .array true [.table .header []])])
  | some (.array true elements) =>
    some (replace ms key (.array true (elements ++ [.table .header []])))
  | some _ => none

end Members

end CopyrightNotice.Toml
