/-
How texts fall into lines when they are put together, and what a line's
content is.

# Complete lines

A line is complete when it ends in its only line feed. Complete lines in
front of a text stay lines of the whole (`lines_flatten_append`), and in
every text all lines but the last are complete (`isComplete_of_lines`).
Both go by `lineInduction`: a text is free of line feeds, or it is a
complete line and a shorter text.

# Content

Content is blind to the terminator (`content_append_lf`), taking it
twice changes nothing (`content_content`), and a text that does not end
in a line feed or a carriage return is its own content
(`content_eq_self`).
-/
import CopyrightNotice.Header.Correction
import Mathlib.Data.List.DropRight

namespace CopyrightNotice.Text

-- ============================================================= content

@[simp] theorem content_nil : content [] = [] := rfl

@[simp] theorem content_lf : content ['\n'] = [] := rfl

theorem content_append_lf (line : Text) :
    content (line ++ ['\n']) = content line :=
  List.rdropWhile_concat_pos _ _ _ rfl

@[simp] theorem content_content (line : Text) :
    content (content line) = content line :=
  dropEndWhile_dropEndWhile isLineEnd line

/-- A text whose last character ends no line is its own content. -/
theorem content_eq_self {line : Text}
    (h : ∀ c, line.getLast? = some c → isLineEnd c = false) :
    content line = line := by
  refine List.rdropWhile_eq_self_iff.2 fun hne => ?_
  rw [h _ (List.getLast?_eq_some_getLast hne)]
  exact Bool.false_ne_true

-- ====================================================== complete lines

/-- A line that ends in its only line feed. -/
def IsComplete (line : Text) : Prop :=
  ∃ front : Text, '\n' ∉ front ∧ line = front ++ ['\n']

/-- A text is free of line feeds, or a complete line and a shorter text. -/
theorem lineInduction {P : Text → Prop} (bare : ∀ t, '\n' ∉ t → P t)
    (line : ∀ front rest, '\n' ∉ front → P rest → P (front ++ '\n' :: rest))
    (t : Text) : P t := by
  by_cases h : '\n' ∈ t
  · obtain ⟨front, rest, ht, hfront⟩ := List.eq_append_cons_of_mem h
    have hlt : rest.length < t.length := by
      rw [ht]
      simp
      omega
    rw [ht]
    exact line front rest hfront (lineInduction bare line rest)
  · exact bare t h
termination_by t.length

/-- A line feed ends the first line. -/
theorem lines_append_lf {front : Text} (h : '\n' ∉ front) (t : Text) :
    lines (front ++ '\n' :: t) = (front ++ ['\n']) :: lines t := by
  induction front with
  | nil => simp [lines]
  | cons c front ih =>
      simp only [List.mem_cons, not_or] at h
      rw [List.cons_append, lines, if_neg (Ne.symm h.1), ih h.2]
      rfl

/-- Without a line feed there is one line, or none. -/
theorem lines_of_no_lf {t : Text} (h : '\n' ∉ t) :
    lines t = if t = [] then [] else [t] := by
  induction t with
  | nil => rfl
  | cons c t ih =>
      simp only [List.mem_cons, not_or] at h
      rw [lines, if_neg (Ne.symm h.1), ih h.2]
      by_cases ht : t = [] <;> simp [ht]

/-- A complete line in front is a line of its own. -/
theorem lines_append_of_isComplete {line : Text} (h : IsComplete line)
    (t : Text) : lines (line ++ t) = line :: lines t := by
  obtain ⟨front, hfront, rfl⟩ := h
  rw [List.append_assoc]
  exact lines_append_lf hfront t

/-- Complete lines in front of a text are lines of the whole. -/
theorem lines_flatten_append {ls : List Text}
    (h : ∀ line ∈ ls, IsComplete line) (t : Text) :
    lines (ls.flatten ++ t) = ls ++ lines t := by
  induction ls with
  | nil => rfl
  | cons line ls ih =>
      rw [List.flatten_cons, List.append_assoc,
        lines_append_of_isComplete (h line (List.mem_cons_self ..)),
        ih fun l hl => h l (List.mem_cons_of_mem _ hl)]
      rfl

/-- A text that ends with a line ends none of the lines behind it. -/
theorem lines_append {front : Text}
    (h : front = [] ∨ front.getLast? = some '\n') (t : Text) :
    lines (front ++ t) = lines front ++ lines t := by
  induction front using lineInduction with
  | bare front hbare =>
      rcases h with rfl | h
      · rfl
      · exact absurd (List.mem_of_getLast? h) hbare
  | line front rest hfront ih =>
      -- what is behind the first line ends as the whole text does
      have hrest : rest = [] ∨ rest.getLast? = some '\n' := by
        rcases h with h | h
        · simp at h
        · rcases List.eq_nil_or_concat rest with rfl | ⟨init, c, rfl⟩
          · exact Or.inl rfl
          · right
            simpa [List.getLast?_append, List.getLast?_cons] using h
      rw [List.append_assoc, List.cons_append, lines_append_lf hfront,
        lines_append_lf hfront, ih hrest]
      rfl

/-- All lines of a text but the last are complete. -/
theorem isComplete_of_lines {t : Text} {front behind : List Text}
    (h : lines t = front ++ behind) (hne : behind ≠ []) :
    ∀ line ∈ front, IsComplete line := by
  induction t using lineInduction generalizing front with
  | bare t hbare =>
      rw [lines_of_no_lf hbare] at h
      intro line hl
      have hlen := congrArg List.length h
      have hpos := List.length_pos_iff.2 hne
      have hfront := List.length_pos_of_mem hl
      rw [List.length_append] at hlen
      split at hlen <;> simp at hlen <;> omega
  | line first rest hfirst ih =>
      rw [lines_append_lf hfirst] at h
      intro line hl
      cases front with
      | nil => cases hl
      | cons l front =>
          simp only [List.cons_append, List.cons.injEq] at h
          rcases List.mem_cons.1 hl with rfl | hl
          · exact ⟨first, hfirst, h.1.symm⟩
          · exact ih h.2 line hl

/-- A line of a text is complete or has no line feed at all. -/
theorem isComplete_or_of_mem_lines {t line : Text} (h : line ∈ lines t) :
    IsComplete line ∨ '\n' ∉ line := by
  induction t using lineInduction with
  | bare t hbare =>
      rw [lines_of_no_lf hbare] at h
      split at h
      · cases h
      · rw [List.mem_singleton.1 h]
        exact Or.inr hbare
  | line first rest hfirst ih =>
      rw [lines_append_lf hfirst] at h
      rcases List.mem_cons.1 h with rfl | h
      · exact Or.inl ⟨first, hfirst, rfl⟩
      · exact ih h

/-- Complete lines in a row are the lines of the text that they make up. -/
theorem lines_flatten_of_isComplete {ls : List Text}
    (h : ∀ line ∈ ls, IsComplete line) : lines ls.flatten = ls := by
  have happend := lines_flatten_append h []
  rwa [List.append_nil, show lines [] = [] from rfl,
    List.append_nil] at happend

/-- The last lines of a text are the lines of what they make up. -/
theorem lines_flatten_of_suffix {t : Text} {below : List Text}
    (h : below <:+ lines t) : lines below.flatten = below := by
  obtain ⟨front, hsplit⟩ := h
  by_cases hne : below = []
  · rw [hne]
    rfl
  · have hcomplete := isComplete_of_lines hsplit.symm hne
    have hlines := lines_flatten_append hcomplete below.flatten
    rw [← List.flatten_append, hsplit, flatten_lines] at hlines
    exact (List.append_cancel_left (hsplit.trans hlines)).symm

-- ========================================================== terminated

/-- To terminate a line leaves its content. -/
@[simp] theorem content_terminated (line : Text) :
    content (terminated line) = content line := by
  unfold terminated
  split
  · rfl
  · exact content_append_lf line

/-- Every line of a text is complete once it is terminated. -/
theorem isComplete_terminated {t line : Text} (h : line ∈ lines t) :
    IsComplete (terminated line) := by
  rcases isComplete_or_of_mem_lines h with hc | hbare
  · obtain ⟨front, hfront, rfl⟩ := hc
    exact ⟨front, hfront, by simp [terminated]⟩
  · have hlast : line.getLast? ≠ some '\n' := fun hl =>
      hbare (List.mem_of_getLast? hl)
    exact ⟨line, hbare, by rw [terminated, if_neg hlast]⟩

end CopyrightNotice.Text
