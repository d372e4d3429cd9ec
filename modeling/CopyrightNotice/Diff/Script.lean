/-
Edit scripts. A script is a list of runs of lines that are kept, deleted
or inserted; read one way it spells the old text and read the other way
the new one. Everything that searches for a short script or tidies one up
keeps both readings.
-/
import CopyrightNotice.Text.Basic

namespace CopyrightNotice.Diff

/-- What happens to lines. -/
inductive Change where
  | keep
  | delete
  | insert
deriving DecidableEq, Repr

/-- Lines to which the same happens. -/
structure Run where
  change : Change
  lines : List Text
deriving DecidableEq, Repr

/-- What leads from one text to another. -/
abbrev Script := List Run

namespace Run

/-- The lines that a run has of the old text. -/
def old (r : Run) : List Text := if r.change = .insert then [] else r.lines

/-- The lines that a run has of the new text. -/
def new (r : Run) : List Text := if r.change = .delete then [] else r.lines

end Run

namespace Script

/-- The lines of the old text. -/
def old (s : Script) : List Text := s.flatMap Run.old

/-- The lines of the new text. -/
def new (s : Script) : List Text := s.flatMap Run.new

/-- The run, if it has lines. -/
def ofRun (change : Change) (lines : List Text) : Script :=
  if lines = [] then [] else [⟨change, lines⟩]

/-- How many runs and lines there are. -/
def weight (s : Script) : Nat := s.foldr (fun r n => r.lines.length + 1 + n) 0

end Script

/-- The lines that two lists have in common in front. -/
def commonFront : List Text → List Text → List Text
  | a :: as, b :: bs => if a = b then a :: commonFront as bs else []
  | _, _ => []

/-- The lines that two lists have in common at the end. -/
def commonEnd (as bs : List Text) : List Text :=
  (commonFront as.reverse bs.reverse).reverse

theorem commonFront_isPrefix_left (as bs : List Text) :
    commonFront as bs <+: as := by
  fun_induction commonFront as bs with
  | case1 _ _ _ ih => exact (List.prefix_cons_inj _).2 ih
  | case2 => exact List.nil_prefix
  | case3 => exact List.nil_prefix

theorem commonFront_isPrefix_right (as bs : List Text) :
    commonFront as bs <+: bs := by
  fun_induction commonFront as bs with
  | case1 _ _ _ ih => exact (List.prefix_cons_inj _).2 ih
  | case2 => exact List.nil_prefix
  | case3 => exact List.nil_prefix

theorem commonEnd_isSuffix_left (as bs : List Text) :
    commonEnd as bs <:+ as := by
  have := commonFront_isPrefix_left as.reverse bs.reverse
  simpa [commonEnd] using List.reverse_suffix.2 this

theorem commonEnd_isSuffix_right (as bs : List Text) :
    commonEnd as bs <:+ bs := by
  have := commonFront_isPrefix_right as.reverse bs.reverse
  simpa [commonEnd] using List.reverse_suffix.2 this

end CopyrightNotice.Diff
