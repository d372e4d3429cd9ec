/-
Reading a document gives the value that was written.

A string is read character by character: what is written for one
character is taken in a few steps and spells the character again, whatever
follows. A value is read from its text by induction on the value; between
two values stand only blanks, commas and brackets, none of which a number
goes on with.

The fuel of the reader is measured in characters of the text. Every step
into an array or an object leaves a line break behind, so two units for a
character are enough.

The main statements: `unescape?_escape`, and `read?_render` for every
value whose numbers and strings are well written.
-/
import Mathlib.Data.Option.Basic
import CopyrightNotice.Json.Printer
import CopyrightNotice.Proofs.Json.Numeral

namespace CopyrightNotice.Json

-- ============================================================= strings

/-- The four digits of a control character are its number. -/
theorem hexQuad?_hexDigit {n : Nat} (h : n < firstPrintable) :
    hexQuad? '0' '0' (hexDigit (n / 16)) (hexDigit (n % 16)) = some n := by
  have key : ∀ n < 0x20,
      hexQuad? '0' '0' (hexDigit (n / 16)) (hexDigit (n % 16)) = some n := by
    decide
  exact key n h

/-- The three ways a character is written: by a letter behind a
backslash, by its number, and as it is. -/
inductive Written (c : Char) : Text → Prop
  | letter {l : Char} (h : unescapeLetter? l = some c) : Written c ['\\', l]
  | number (h : c.toNat < firstPrintable) :
    Written c ['\\', 'u', '0', '0', hexDigit (c.toNat / 16),
    hexDigit (c.toNat % 16)]
  | plain (hquote : c ≠ '"') (hslash : c ≠ '\\')
      (h : firstPrintable ≤ c.toNat) : Written c [c]

/-- An escaped character is written in one of the ways. -/
theorem written_escapeChar (c : Char) : Written c (escapeChar c) := by
  fun_cases escapeChar c with
  | case8 _ _ _ _ _ _ _ h => exact .number h
  | case9 hquote hslash _ _ _ _ _ h =>
      exact .plain hquote hslash (Nat.le_of_not_lt h)
  | _ => subst_vars; exact .letter rfl

/-- No single letter behind a backslash starts a number of a character. -/
theorem ne_u_of_unescapeLetter? {l c : Char} (h : unescapeLetter? l = some c) :
    l ≠ 'u' := by
  rintro rfl
  cases h

/-- What is written for a character is taken as it stands. -/
private theorem readInside?_of_written {c : Char} {w : Text} (h : Written c w)
    (t : Text) :
    readInside? (w ++ t) = (readInside? t).map fun p => (w ++ p.1, p.2) := by
  rw [Option.map_eq_bind]
  cases h with
  | letter h =>
    have hu := ne_u_of_unescapeLetter? h
    simp [readInside?, h, hu]
  | number h =>
    simp [readInside?, hexQuad?_hexDigit h]
  | plain hquote hslash h =>
    have h := Nat.not_lt.2 h
    simp [readInside?, hslash, h]

/-- What is written for a character spells it. -/
private theorem unescape?_of_written {c : Char} {w : Text} (h : Written c w)
    (t : Text) : unescape? (w ++ t) = (unescape? t).map (c :: ·) := by
  rw [Option.map_eq_bind]
  cases h with
  | letter h =>
    have hu := ne_u_of_unescapeLetter? h
    simp [unescape?, h, hu]
  | number h =>
    -- a control character is no half of a surrogate pair
    have hn : c.toNat < 0x20 := h
    have hlow : isLowHalf c.toNat = false := by simp [isLowHalf]; omega
    have hhigh : isHighHalf c.toNat = false := by simp [isHighHalf]; omega
    simp [unescape?, hexQuad?_hexDigit h, hlow, hhigh]
  | plain hquote hslash h =>
    simp [unescape?, hslash]

theorem escape_cons (c : Char) (t : Text) :
    escape (c :: t) = escapeChar c ++ escape t :=
  rfl

/-- The inside of a string spells the text it was written for. -/
theorem unescape?_escape (t : Text) : unescape? (escape t) = some t := by
  induction t with
  | nil => rw [escape, List.flatMap_nil, unescape?]
  | cons c t ih =>
    rw [escape_cons, unescape?_of_written (written_escapeChar c), ih]
    rfl

/-- What may stand between quotes: it is taken up to the closing one. -/
def IsInside (w : Text) : Prop :=
  ∀ rest, readInside? (w ++ '"' :: rest) = some (w, rest)

/-- An escaped text may stand between quotes. -/
theorem isInside_escape (t : Text) : IsInside (escape t) := by
  intro rest
  induction t with
  | nil => rw [escape, List.flatMap_nil, List.nil_append, readInside?]
  | cons c t ih =>
    rw [escape_cons, List.append_assoc,
      readInside?_of_written (written_escapeChar c), ih]
    rfl

-- ============================================================== blanks

/-- A blank in front is passed over. -/
theorem skipBlanks_cons {c : Char} {t : Text} (h : isBlank c = true) :
    skipBlanks (c :: t) = skipBlanks t := by
  simp [skipBlanks, h]

theorem skipBlanks_cons_of_not {c : Char} {t : Text} (h : isBlank c = false) :
    skipBlanks (c :: t) = c :: t := by
  simp [skipBlanks, h]

/-- A line break and an indent are blanks. -/
theorem skipBlanks_newline (depth : Nat) (t : Text) :
    skipBlanks (newline depth ++ t) = skipBlanks t := by
  have hspaces (k : Nat) : skipBlanks (List.replicate k ' ' ++ t)
      = skipBlanks t := by
    induction k with
    | zero => rfl
    | succ k ih =>
        rw [List.replicate_succ, List.cons_append, skipBlanks_cons rfl, ih]
  rw [newline, List.cons_append, skipBlanks_cons rfl, hspaces]

-- ============================================================== values

/-- Values whose numbers and strings are well written. -/
inductive Printable : Json → Prop
  | null : Printable .null
  | bool (b : Bool) : Printable (.bool b)
  | number {literal : Text} (h : IsNumeral literal) :
      Printable (.number literal)
  | string {written : Text} (h : IsInside written) :
      Printable (.string written)
  | array {elements : List Json} (h : ∀ e ∈ elements, Printable e) :
      Printable (.array elements)
  | object {members : List (Text × Json)} (hkey : ∀ m ∈ members, IsInside m.1)
    (h : ∀ m ∈ members, Printable m.2) : Printable (.object members)

/-- A value starts with a character of its own: no blank, and none that
ends what holds the value. -/
theorem Printable.exists_cons {j : Json} (h : Printable j) (depth : Nat) :
    ∃ c more, renderAt depth j = c :: more ∧ isBlank c = false ∧ c ≠ ']' := by
  cases h with
  | null => exact ⟨'n', _, rfl, rfl, by decide⟩
  | bool b => cases b with
    | false => exact ⟨'f', _, rfl, rfl, by decide⟩
    | true => exact ⟨'t', _, rfl, rfl, by decide⟩
  | number h =>
    obtain ⟨c, more, rfl, hc⟩ := h.exists_cons
    refine ⟨c, more, rfl, ?_⟩
    rcases hc with hc | rfl
    · have hne {x : Char} (hx : x.isDigit = false) : c ≠ x :=
        ne_of_isDigit hc hx
      simp [isBlank, hne]
    · decide
  | string h => exact ⟨'"', _, rfl, rfl, by decide⟩
  | @array elements h =>
    rcases elements with _ | ⟨first, more⟩
    · exact ⟨'[', _, rfl, rfl, by decide⟩
    · exact ⟨'[', _, rfl, rfl, by decide⟩
  | @object members hkey h =>
    rcases members with _ | ⟨⟨key, value⟩, more⟩
    · exact ⟨'\x7b', _, rfl, rfl, by decide⟩
    · exact ⟨'\x7b', _, rfl, rfl, by decide⟩

/-- A value that is written does not begin with a blank. -/
theorem Printable.skipBlanks_renderAt {j : Json} (h : Printable j)
    (depth : Nat) (rest : Text) :
    skipBlanks (renderAt depth j ++ rest) = renderAt depth j ++ rest := by
  obtain ⟨c, more, e, hblank, -⟩ := h.exists_cons depth
  rw [e, List.cons_append, skipBlanks_cons_of_not hblank]

/-- The value is read from its text, blanks in front of it skipped, if
the text behind it does not go on with a number. -/
def Reads (j : Json) : Prop :=
  ∀ depth fuel t rest, 2 * (renderAt depth j).length < fuel → Apart rest →
    skipBlanks t = renderAt depth j ++ rest →
    readValue? fuel t = some (j, rest)

/-- An element, on the next line. -/
private theorem Reads.next_line {j : Json} (hr : Reads j) (h : Printable j)
    (depth : Nat) {fuel : Nat} {rest : Text}
    (hfuel : 2 * (renderAt depth j).length < fuel) (hrest : Apart rest) :
    readValue? fuel (newline depth ++ (renderAt depth j ++ rest))
      = some (j, rest) :=
  hr depth fuel _ rest hfuel hrest
    ((skipBlanks_newline _ _).trans (h.skipBlanks_renderAt depth rest))

/-- A member's value, behind a blank. -/
private theorem Reads.next_word {j : Json} (hr : Reads j) (h : Printable j)
    (depth : Nat) {fuel : Nat} {rest : Text}
    (hfuel : 2 * (renderAt depth j).length < fuel) (hrest : Apart rest) :
    readValue? fuel (' ' :: (renderAt depth j ++ rest)) = some (j, rest) :=
  hr depth fuel _ rest hfuel hrest
    ((skipBlanks_cons rfl).trans (h.skipBlanks_renderAt depth rest))

/-- A new line ends a number in front of it. -/
theorem apart_newline (depth : Nat) (t : Text) :
    Apart (newline depth ++ t) := by
  rintro _ ⟨⟩
  rfl

/-- So does a comma. -/
theorem apart_comma (t : Text) : Apart (',' :: t) := by
  rintro _ ⟨⟩
  rfl

private theorem apart_nil : Apart [] := nofun

/-- Nothing is read back. -/
private theorem reads_null : Reads .null := by
  intro depth fuel t rest hfuel _ ht
  obtain ⟨fuel, rfl⟩ := Nat.exists_eq_add_one.2 (by omega : 0 < fuel)
  rw [readValue?, ht]
  simp [renderAt, skipWord?]

/-- A truth value is read back. -/
private theorem reads_bool (b : Bool) : Reads (.bool b) := by
  intro depth fuel t rest hfuel _ ht
  obtain ⟨fuel, rfl⟩ := Nat.exists_eq_add_one.2 (by omega : 0 < fuel)
  rw [readValue?, ht]
  cases b <;> simp [renderAt, skipWord?]

/-- A number is read back, if something stands behind it that is not part of
it. -/
private theorem reads_number {literal : Text} (h : IsNumeral literal) :
    Reads (.number literal) := by
  intro depth fuel t rest hfuel hrest ht
  obtain ⟨fuel, rfl⟩ := Nat.exists_eq_add_one.2 (by omega : 0 < fuel)
  obtain ⟨c, more, rfl, hc⟩ := h.exists_cons
  -- a digit or a sign starts no other value
  have hne {x : Char} (hx : ¬(x.isDigit = true ∨ x = '-')) : c ≠ x := by
    rintro rfl
    exact hx hc
  have hread := readNumber?_append h hrest
  rw [List.cons_append] at hread
  rw [readValue?, ht, renderAt, List.cons_append]
  simp [hne, hread]

/-- A string is read back. -/
private theorem reads_string {written : Text} (h : IsInside written) :
    Reads (.string written) := by
  intro depth fuel t rest hfuel _ ht
  obtain ⟨fuel, rfl⟩ := Nat.exists_eq_add_one.2 (by omega : 0 < fuel)
  rw [readValue?, ht]
  simp [renderAt, quoted, h rest]

-- ============================================================== arrays

theorem renderElements_cons (depth : Nat) (value : Json) (more : List Json) :
    renderElements depth (value :: more)
      = ','
        :: (newline depth ++ renderAt depth value
          ++ renderElements depth more) :=
  rfl

/-- What follows an element does not go on with it. -/
private theorem apart_renderElements (depth outer : Nat) (more : List Json)
    (t : Text) :
    Apart (renderElements depth more ++ (newline outer ++ t)) := by
  cases more with
  | nil => exact apart_newline outer t
  | cons value more => rw [renderElements_cons]; exact apart_comma _

/-- One element is read, and what stands behind it says whether more
follow. -/
theorem readElements?_next {first : Json} (hprint : Printable first)
    (hread : Reads first) {depth fuel : Nat} {t : Text}
    (hfit : 2 * (renderAt depth first).length < fuel) (ht : Apart t) :
    readElements? (fuel + 1) (newline depth ++ (renderAt depth first ++ t))
      = match skipBlanks t with
        | ']' :: rest => some ([first], rest)
        | ',' :: rest => (readElements? fuel rest).bind fun p =>
            some (first :: p.1, p.2)
        | _ => none := by
  rw [readElements?, hread.next_line hprint depth hfit ht]
  rfl

/-- Elements on lines of their own are read up to the closing bracket. -/
private theorem readElements?_render (depth outer : Nat) {fuel : Nat}
    {first : Json} {more : List Json}
    (h : ∀ e ∈ first :: more, Printable e ∧ Reads e) (rest : Text)
    (hfuel : 2 * (newline depth ++ renderAt depth first
        ++ renderElements depth more).length
      < fuel) :
    readElements? fuel (newline depth
        ++ (renderAt depth first
          ++ (renderElements depth more ++ (newline outer ++ ']' :: rest))))
      = some (first :: more, rest) := by
  induction more generalizing first fuel with
  -- the last element, behind which the array is closed
  | nil =>
    obtain ⟨fuel, rfl⟩ := Nat.exists_eq_add_one.2 (by omega : 0 < fuel)
    obtain ⟨hprint, hread⟩ := h first List.mem_cons_self
    simp only [newline, List.length_append, List.length_cons] at hfuel
    have hfit : 2 * (renderAt depth first).length < fuel := by omega
    rw [renderElements, List.nil_append,
      readElements?_next hprint hread hfit (apart_newline outer (']' :: rest)),
      skipBlanks_newline, skipBlanks_cons_of_not rfl]
    rfl
  | cons second more ih =>
    obtain ⟨fuel, rfl⟩ := Nat.exists_eq_add_one.2 (by omega : 0 < fuel)
    obtain ⟨hprint, hread⟩ := h first List.mem_cons_self
    rw [renderElements_cons, newline] at hfuel
    simp only [List.length_append, List.length_cons] at hfuel
    have hfit : 2 * (renderAt depth first).length < fuel := by omega
    have hrest : 2 * (newline depth ++ renderAt depth second
          ++ renderElements depth more).length
        < fuel := by
      simp only [newline, List.length_append, List.length_cons]; omega
    have hmore := ih (fun e he => h e (List.mem_cons_of_mem _ he)) hrest
    rw [readElements?_next hprint hread hfit
      (apart_renderElements depth outer _ _), renderElements_cons,
      List.cons_append, skipBlanks_cons_of_not rfl]
    simp only [List.append_assoc, hmore, Option.bind_some]

/-- An array is read back if its elements are. -/
private theorem reads_array {elements : List Json}
    (h : ∀ e ∈ elements, Printable e ∧ Reads e) : Reads (.array elements) := by
  intro depth fuel t rest hfuel _ ht
  obtain ⟨fuel, rfl⟩ := Nat.exists_eq_add_one.2 (by omega : 0 < fuel)
  rw [readValue?, ht]
  rcases elements with _ | ⟨first, more⟩
  · simp [renderAt, skipBlanks_cons_of_not (c := ']') rfl]
  · have hfit : 2 * (newline (depth + 1) ++ renderAt (depth + 1) first
        ++ renderElements (depth + 1) more).length < fuel := by
      simp only [renderAt, List.length_append, List.length_cons]
        at hfuel ⊢; omega
    have helements := readElements?_render (depth + 1) depth h rest hfit
    -- no element starts with the bracket that closes an empty array
    obtain ⟨c, text, e, hblank, hclose⟩ :=
      (h first List.mem_cons_self).1.exists_cons (depth + 1)
    rw [e, List.cons_append] at helements
    rw [renderAt, e]
    simp only [List.cons_append, List.append_assoc, skipBlanks_newline,
      skipBlanks_cons_of_not hblank]
    simp [hclose, helements]

-- ============================================================= objects

theorem renderMembers_cons (depth : Nat) (key : Text) (value : Json)
    (more : List (Text × Json)) :
    renderMembers depth ((key, value) :: more)
      = ','
        :: (newline depth ++ quoted key ++ ':' :: ' ' :: renderAt depth value
          ++ renderMembers depth more) :=
  rfl

/-- Members and the end of their object are apart from a number in front. -/
private theorem apart_renderMembers (depth outer : Nat)
    (more : List (Text × Json)) (t : Text) :
    Apart (renderMembers depth more ++ (newline outer ++ t)) := by
  cases more with
  | nil => exact apart_newline outer t
  | cons member more => rw [renderMembers_cons]; exact apart_comma _

/-- One member is read, and what stands behind it says whether more
follow. -/
theorem readMembers?_next {key : Text} {value : Json} (hinside : IsInside key)
    (hprint : Printable value) (hread : Reads value) {depth fuel : Nat}
    {t : Text} (hfit : 2 * (renderAt depth value).length < fuel)
    (ht : Apart t) : readMembers? (fuel + 1) (newline depth ++ '"'
      :: (key ++ '"' :: ':' :: ' ' :: (renderAt depth value ++ t)))
      = match skipBlanks t with
        | '\x7d' :: rest => some ([(key, value)], rest)
        | ',' :: rest => (readMembers? fuel rest).bind fun p =>
            some ((key, value) :: p.1, p.2)
        | _ => none := by
  rw [readMembers?, skipBlanks_newline, skipBlanks_cons_of_not (c := '"') rfl]
  simp only [hinside _, Option.bind_eq_bind, Option.bind_some,
    skipBlanks_cons_of_not (c := ':') rfl,
    hread.next_word hprint depth hfit ht]
  rfl

/-- Members on lines of their own are read up to the closing brace. -/
private theorem readMembers?_render (depth outer : Nat) {fuel : Nat}
    {key : Text} {value : Json} {more : List (Text × Json)}
    (h : ∀ m ∈ (key, value) :: more, IsInside m.1 ∧ Printable m.2 ∧ Reads m.2)
    (rest : Text)
    (hfuel : 2 * (newline depth ++ quoted key
        ++ ':' :: ' ' :: renderAt depth value
        ++ renderMembers depth more).length
      < fuel) :
    readMembers? fuel (newline depth
        ++ '"'
          :: (key
            ++ '"' :: ':' :: ' '
              :: (renderAt depth value
                ++ (renderMembers depth more
                  ++ (newline outer ++ '\x7d' :: rest)))))
      = some ((key, value) :: more, rest) := by
  induction more generalizing key value fuel with
  -- the last member, behind which the object is closed
  | nil =>
    obtain ⟨fuel, rfl⟩ := Nat.exists_eq_add_one.2 (by omega : 0 < fuel)
    obtain ⟨hinside, hprint, hread⟩ : IsInside key ∧ value.Printable
        ∧ value.Reads :=
      h _ List.mem_cons_self
    simp only [newline, List.length_append, List.length_cons] at hfuel
    have hfit : 2 * (renderAt depth value).length < fuel := by omega
    rw [renderMembers, List.nil_append,
      readMembers?_next hinside hprint hread hfit (apart_newline outer ('\x7d'
      :: rest)), skipBlanks_newline, skipBlanks_cons_of_not rfl]
    rfl
  -- each member takes its own length of fuel and leaves that of the rest
  | cons second more ih =>
    obtain ⟨fuel, rfl⟩ := Nat.exists_eq_add_one.2 (by omega : 0 < fuel)
    obtain ⟨hinside, hprint, hread⟩ : IsInside key ∧ value.Printable
        ∧ value.Reads :=
      h _ List.mem_cons_self
    obtain ⟨key₂, value₂⟩ := second
    rw [renderMembers_cons, newline] at hfuel
    simp only [List.length_append, List.length_cons] at hfuel
    have hfit : 2 * (renderAt depth value).length < fuel := by omega
    have hrest : 2 * (newline depth ++ quoted key₂
          ++ ':' :: ' ' :: renderAt depth value₂
          ++ renderMembers depth more).length
        < fuel := by
      simp only [newline, List.length_append, List.length_cons]; omega
    have hmore := ih (fun m hm => h m (List.mem_cons_of_mem _ hm)) hrest
    rw [readMembers?_next hinside hprint hread hfit
      (apart_renderMembers depth outer _ _), renderMembers_cons,
      List.cons_append, skipBlanks_cons_of_not rfl]
    simp only [quoted, List.append_assoc, List.cons_append, List.nil_append,
      hmore, Option.bind_some]

/-- An object is read back if the values of its members are. -/
private theorem reads_object {members : List (Text × Json)}
    (h : ∀ m ∈ members, IsInside m.1 ∧ Printable m.2 ∧ Reads m.2) :
    Reads (.object members) := by
  intro depth fuel t rest hfuel _ ht
  obtain ⟨fuel, rfl⟩ := Nat.exists_eq_add_one.2 (by omega : 0 < fuel)
  rw [readValue?, ht]
  rcases members with _ | ⟨⟨key, value⟩, more⟩
  · simp [renderAt, skipBlanks_cons_of_not (c := '\x7d') rfl]
  · have hfit : 2 * (newline (depth + 1) ++ quoted key
          ++ ':' :: ' ' :: renderAt (depth + 1) value
          ++ renderMembers (depth + 1) more).length
        < fuel := by
      simp only [renderAt, List.length_append, List.length_cons]
        at hfuel ⊢; omega
    have hmembers := readMembers?_render (depth + 1) depth h rest hfit
    simp [renderAt, quoted, skipBlanks_newline,
      skipBlanks_cons_of_not (c := '"') rfl, hmembers]

-- =========================================================== documents

/-- Every value that is well written is read from its text. -/
theorem Printable.reads {j : Json} (h : Printable j) : Reads j := by
  induction h with
  | null => exact reads_null
  | bool b => exact reads_bool b
  | number h => exact reads_number h
  | string h => exact reads_string h
  | array h ih => exact reads_array fun e he => ⟨h e he, ih e he⟩
  | object hkey h ih =>
      exact reads_object fun m hm => ⟨hkey m hm, h m hm, ih m hm⟩

/-- A document holds the value it was made of. -/
theorem read?_render {j : Json} (h : Printable j) :
    read? j.render = some j := by
  have hread := h.reads 0 (2 * j.render.length + 2) j.render []
    (by rw [render]; omega) apart_nil
    (h.skipBlanks_renderAt 0 [] ▸ by rw [List.append_nil, render])
  rw [read?, hread]
  rfl

end CopyrightNotice.Json
