/-
Text and bytes, as lists, and the few questions the rest of the library
asks of them: what is blank, where a text is trimmed, how it falls into
lines.

Everything that reads or changes a file works on lists of characters,
so that "nothing is lost" is an equation between lists. `String` appears
where text leaves the library for a person to read.

The main statements: `lines` keeps every character (`flatten_lines`),
none of its lines is empty (`ne_nil_of_mem_lines`), and trimming is
idempotent (`trimEnd_trimEnd`).
-/

namespace CopyrightNotice

/-- A text is the list of its characters. -/
abbrev Text := List Char

/-- The content of a file, a name or a path as the system stores it. -/
abbrev Bytes := List UInt8

namespace Text

-- ============================================================= blanks

/-- The characters with the property White_Space. -/
def isBlank (c : Char) : Bool :=
  let n := c.toNat
  (0x9 ≤ n && n ≤ 0xD) || n == 0x20 || n == 0x85 || n == 0xA0 || n == 0x1680
    || (0x2000 ≤ n && n ≤ 0x200A) || n == 0x2028 || n == 0x2029 || n == 0x202F
    || n == 0x205F || n == 0x3000

-- =========================================================== trimming

/-- What is left of a list once its longest tail of elements satisfying
`p` is gone. -/
def dropEndWhile {α : Type} (p : α → Bool) (l : List α) : List α :=
  (l.reverse.dropWhile p).reverse

/-- Text without its trailing blanks. -/
def trimEnd (t : Text) : Text := dropEndWhile isBlank t

/-- Text without its leading and trailing blanks. -/
def trim (t : Text) : Text := trimEnd (t.dropWhile isBlank)

/-- What stays is a front part of the list. -/
theorem dropEndWhile_isPrefix {α : Type} (p : α → Bool) (l : List α) :
    dropEndWhile p l <+: l := by
  have h := List.dropWhile_suffix p (l := l.reverse)
  simpa [dropEndWhile] using List.reverse_prefix.2 h

/-- The last element that stays fails the test. -/
theorem not_of_getLast_dropEndWhile {α : Type} {p : α → Bool} {l : List α}
    (h : dropEndWhile p l ≠ []) :
    p ((dropEndWhile p l).getLast h) = false := by
  have h' : l.reverse.dropWhile p ≠ [] := by
    intro e; exact h (by simp [dropEndWhile, e])
  simp only [dropEndWhile, List.getLast_reverse]
  have := List.head_dropWhile_not p h'
  simpa using this

theorem dropEndWhile_dropEndWhile {α : Type} (p : α → Bool) (l : List α) :
    dropEndWhile p (dropEndWhile p l) = dropEndWhile p l := by
  have key : ∀ m : List α, (m.dropWhile p).dropWhile p = m.dropWhile p := by
    intro m
    induction m with
    | nil => rfl
    | cons a m ih =>
      by_cases ha : p a = true
      · simp [ha, ih]
      · simp [ha]
  simp [dropEndWhile, key]

theorem trimEnd_trimEnd (t : Text) : trimEnd (trimEnd t) = trimEnd t :=
  dropEndWhile_dropEndWhile isBlank t

-- ============================================================== lines

/-- The lines of a text, each with its line feed; a last line may lack
one. -/
def lines : Text → List Text
  | [] => []
  | c :: rest =>
    if c = '\n' then [c] :: lines rest
    else match lines rest with
      | [] => [[c]]
      | line :: more => (c :: line) :: more

/-- Line feeds and carriage returns end lines. -/
def isLineEnd (c : Char) : Bool := c == '\n' || c == '\r'

/-- A line without the line feeds and carriage returns at its end. -/
def content (line : Text) : Text := dropEndWhile isLineEnd line

/-- The lines of a text without their terminators, a line feed or a
carriage return and a line feed. -/
def bareLines (t : Text) : List Text :=
  (lines t).map fun line =>
    match line.reverse with
    | '\n' :: '\r' :: front => front.reverse
    | '\n' :: front => front.reverse
    | _ => line

/-- The lines, put together again, are the text. -/
theorem flatten_lines (t : Text) : (lines t).flatten = t := by
  induction t with
  | nil => rfl
  | cons c rest ih =>
    unfold lines
    split
    · simp [ih]
    · split
      · rename_i h; rw [h] at ih; simp at ih; simp [← ih]
      · rename_i h; rw [h] at ih; simp at ih; simp [ih]

/-- No line is empty: it has content or a terminator. -/
theorem ne_nil_of_mem_lines {t line : Text} (h : line ∈ lines t) :
    line ≠ [] := by
  induction t generalizing line with
  | nil => simp [lines] at h
  | cons c rest ih =>
    unfold lines at h
    split at h
    · rcases List.mem_cons.1 h with rfl | h
      · simp
      · exact ih h
    · split at h
      · simp at h; simp [h]
      · rename_i first more hl
        rcases List.mem_cons.1 h with rfl | h
        · simp
        · exact ih (by rw [hl]; exact List.mem_cons_of_mem _ h)

end Text

end CopyrightNotice
