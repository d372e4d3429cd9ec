/-
JSON on lines of its own: every element and member on one line, two
spaces deeper than what holds it. What is empty stays on one line.
-/
import CopyrightNotice.Json.Basic

namespace CopyrightNotice.Json

/-- A line break and the indent of a depth. -/
def newline (depth : Nat) : Text := '\n' :: List.replicate (2 * depth) ' '

/-- The string with the given inside. -/
def quoted (written : Text) : Text := '"' :: written ++ ['"']

mutual

/-- A value that stands at a depth. -/
def renderAt (depth : Nat) : Json → Text
  | .null => "null".toList
  | .bool true => "true".toList
  | .bool false => "false".toList
  | .number literal => literal
  | .string written => quoted written
  | .array [] => ['[', ']']
  | .array (first :: more) =>
    '[' :: newline (depth + 1) ++ renderAt (depth + 1) first
      ++ renderElements (depth + 1) more
      ++ newline depth ++ [']']
  | .object [] => ['\x7b', '\x7d']
  | .object ((key, value) :: more) =>
    '\x7b' :: newline (depth + 1) ++ quoted key ++ ':' :: ' '
      :: renderAt (depth + 1) value
      ++ renderMembers (depth + 1) more ++ newline depth ++ ['\x7d']

/-- The elements after the first. -/
def renderElements (depth : Nat) : List Json → Text
  | [] => []
  | value :: more => ',' :: newline depth ++ renderAt depth value
      ++ renderElements depth more

/-- The members after the first. -/
def renderMembers (depth : Nat) : List (Text × Json) → Text
  | [] => []
  | (key, value) :: more =>
    ',' :: newline depth ++ quoted key ++ ':' :: ' ' :: renderAt depth value
      ++ renderMembers depth more

end

/-- A value as a document. -/
def render (j : Json) : Text := renderAt 0 j

end CopyrightNotice.Json
