/-
Lowercase text. Every character is mapped on its own, save the capital
sigma, which becomes a final sigma at the end of a word: behind a cased
letter and before none, marks and stops in between not counted.
-/
import CopyrightNotice.Text.CaseTable

namespace CopyrightNotice.Text

/-- Whether the character lies in one of the ranges. -/
def within (ranges : List (Nat × Nat)) (c : Char) : Bool :=
  ranges.any fun (low, high) => low ≤ c.toNat && c.toNat ≤ high

/-- The lowercase of one character: itself, one letter, or for the dotted
capital I a letter and its dot. -/
def lowerChar (c : Char) : Text :=
  if c = '\u0130' then ['i', '\u0307']
  else match lowercaseRuns.find? (·.covers c.toNat) with
    | some run => [Char.ofNat (c.toNat + run.shift).toNat]
    | none => [c]

/-- Whether a cased letter is next, read in the direction of the list. -/
def meetsCased (t : Text) : Bool :=
  match t.dropWhile (within caseIgnorable) with
  | c :: _ => within casedLetters c
  | [] => false

/-- The lowercase of a text that stands behind `before`, the nearest
character first. -/
def lowercaseAfter (before : Text) : Text → Text
  | [] => []
  | c :: rest =>
    let here :=
      if c = 'Σ' then
        if meetsCased before && !meetsCased rest then ['ς'] else ['σ']
      else lowerChar c
    here ++ lowercaseAfter (c :: before) rest

/-- The text in lowercase. -/
def lowercase (t : Text) : Text := lowercaseAfter [] t

end CopyrightNotice.Text
