/-
What a search knows of the header it is in: how far the lines found
agree with the lines expected, and where they first differ.

# The invariant

`Knows` ties each state to the lines settled so far. While a search
compares, the header's lines are exactly the expected ones up to its
place; once it drains, there is a first difference and it is the one
reported; a match has seen all expected lines and a terminator below
them. `knows_step` carries it over a step and `knows_run` over every
run. A first difference survives further lines
(`FirstDifference.append`) and excludes agreement
(`FirstDifference.not_prefix`), so a verdict on a header is exact:
`matched_iff`.
-/
import CopyrightNotice.Proofs.Header.Opener
import CopyrightNotice.Proofs.Header.Settled

namespace CopyrightNotice

open Text (content)

-- ===================================================== first differences

/-- The lists agree in front of a place at which they have different
entries. -/
def FirstDifference (found expected : List Text) (x y : Text) : Prop :=
  ∃ common more rest, found = common ++ x :: more
    ∧ expected = common ++ y :: rest ∧ x ≠ y

namespace FirstDifference

variable {found expected : List Text} {x y : Text}

theorem append (h : FirstDifference found expected x y) (new : List Text) :
    FirstDifference (found ++ new) expected x y := by
  obtain ⟨common, more, rest, rfl, hexp, hne⟩ := h
  exact ⟨common, more ++ new, rest, by simp, hexp, hne⟩

/-- Where lines differ from those expected, the expected ones are no prefix. -/
theorem not_prefix (h : FirstDifference found expected x y) :
    ¬ expected <+: found := by
  rintro ⟨tail, htail⟩
  obtain ⟨common, more, rest, rfl, rfl, hne⟩ := h
  rw [List.append_assoc, List.append_cancel_left_eq, List.cons_append] at htail
  exact hne (List.cons.inj htail).1.symm

end FirstDifference

namespace Recognizer

variable {r : Recognizer}

/-- The expected lines in front of a place of the body. -/
theorem lines_eq_take_append (r : Recognizer) {place : Nat}
    (h : place < r.header.body.length) :
    r.header.lines = (r.header.opening.toList ++ r.header.body.take place)
      ++ r.header.body[place] :: r.header.body.drop (place + 1) := by
  rw [List.append_assoc, ← List.drop_eq_getElem_cons h, List.take_append_drop]
  rfl

/-- One more line of the body is taken. -/
theorem take_succ_body {place : Nat} {line : Text}
    (h : r.header.body[place]? = some line) :
    r.header.body.take (place + 1) = r.header.body.take place ++ [line] := by
  rw [List.take_add_one, h]
  rfl

-- ===================================================== opening markers

/-- The held lines of a scan: none, or one that may open a header. -/
def Held (r : Recognizer) (held : List Text) : Prop :=
  held = [] ∨ ∃ line, held = [line] ∧ r.isMarker line = true

/-- An opening without fault is the expected one. -/
theorem map_content_of_openingFault?_eq_none {held : List Text} {line : Text}
    (hheld : r.Held held) (h : r.openingFault? held line = none) :
    held.map content = r.header.opening.toList := by
  unfold openingFault? at h
  rcases hheld with rfl | ⟨m, rfl, hm⟩
  · cases ho : r.header.opening with
    | none => rfl
    | some opening => simp [ho] at h
  · cases ho : r.header.opening with
    | none => simp [isMarker, ho] at hm
    | some opening => simpa [ho] using h

/-- A fault of the opening is in the first line of the header. -/
theorem differ_of_openingFault?_eq_some {held : List Text} {line : Text}
    {fault : Mismatch} (hplain : (held.isEmpty && r.isMarker line) = false)
    (h : r.openingFault? held line = some fault) :
    ∃ x y more rest, (held ++ [line]).map content = x :: more
      ∧ r.header.lines = y :: rest
      ∧ x ≠ y
      ∧ fault = ⟨Text.trim x, Text.trim y⟩ := by
  unfold openingFault? at h
  cases ho : r.header.opening with
  | none => simp [ho] at h
  | some opening =>
      simp only [ho] at h
      split at h
      · cases h
      · rename_i hfirst
        have hne : content (held.headD line) ≠ opening := by
          intro heq
          cases held with
          | nil =>
              simp only [List.headD_nil] at heq
              simp [isMarker, ho, heq, CommentFormat.isMarkerLine] at hplain
          | cons m more => exact absurd heq (by simpa using hfirst)
        refine ⟨_, _, (held.tail ++ [line].drop (1 - held.length)).map content,
          r.header.body, ?_, ?_, hne, (Option.some.inj h).symm⟩
        · cases held <;> simp
        · simp [Header.lines, ho]

/-- A fault of the opening is the first difference of the header. -/
private theorem firstDifference_of_openingFault?_eq_some {held : List Text}
    {line : Text} {fault : Mismatch}
    (hplain : (held.isEmpty && r.isMarker line) = false)
    (h : r.openingFault? held line = some fault) :
    ∃ x y, FirstDifference ((held ++ [line]).map content) r.header.lines x y
      ∧ fault = ⟨Text.trim x, Text.trim y⟩ := by
  obtain ⟨x, y, more, rest, hfound, hexp, hne, hfault⟩ :=
    differ_of_openingFault?_eq_some hplain h
  exact ⟨x, y, ⟨[], more, rest, hfound, hexp, hne⟩, hfault⟩

-- ======================================================== the invariant

/-- What a state says of the header and the lines behind it. -/
def Knows (r : Recognizer) (header after : List Text)
    (mismatch : Option Mismatch) : Search → Prop
  | .scanning => True
  | .marker held => r.Held held
  | .opener held => 2 ≤ r.header.body.length
      ∧ held.map content = r.header.opening.toList ++ r.header.body.take 1
  | .comparing place => place ≤ r.header.body.length ∧ mismatch = none
      ∧ header.map content
      = r.header.opening.toList ++ r.header.body.take place
  | .draining => ∃ x y, FirstDifference (header.map content) r.header.lines x y
      ∧ mismatch = some ⟨Text.trim x, Text.trim y⟩
  | .matched => mismatch = none ∧ ∃ last,
      header.map content = r.header.lines ++ [content last]
        ∧ r.format.isTerminator last = true
  | .differed =>
      (∃ x y, FirstDifference ((header ++ after).map content) r.header.lines x
        y ∧ mismatch = some ⟨Text.trim x, Text.trim y⟩)
      ∨ (mismatch = none ∧ ∃ last more,
        (header ++ after).map content = r.header.lines ++ content last :: more
          ∧ r.format.isTerminator last = false)

/-- A scan knows what it began. -/
theorem Scans.knows {held : List Text} {line : Text} {t : Transition}
    (hheld : r.Held held) (ht : r.Scans held line t) :
    r.Knows (Settled.of t.effects).header (Settled.of t.effects).after
      (Settled.of t.effects).mismatch t.next := by
  have hhead : r.header.body[0]?
      = some (r.header.body.head r.header.body_ne_nil) := by
    rw [← List.head?_eq_getElem?, List.head?_eq_some_head]
  have hpos := List.length_pos_iff.2 r.header.body_ne_nil
  cases ht with
  | marker hnil hmark => exact Or.inr ⟨line, rfl, hmark⟩
  | text => trivial
  | misplaced hplain hopen fault hfault =>
      obtain ⟨x, y, hxy, rfl⟩ :=
        firstDifference_of_openingFault?_eq_some hplain hfault
      exact ⟨x, y, by simpa using hxy, by simp⟩
  | unlike hplain hopen hfault hne =>
      have hopening := map_content_of_openingFault?_eq_none hheld hfault
      refine ⟨content line, r.header.body[0], ⟨r.header.opening.toList, [],
        r.header.body.drop 1, ?_, ?_, ?_⟩, ?_⟩
      · simp [hopening, mismatchAt]
      · simpa using r.lines_eq_take_append hpos
      · rwa [List.getElem_zero_eq_head]
      · simp [mismatchAt, hpos]
  | whole hplain hopen hfault heq hlen =>
      have hopening := map_content_of_openingFault?_eq_none hheld hfault
      refine ⟨hpos, by simp, ?_⟩
      rw [take_succ_body hhead]
      simp [hopening, heq]
  | first hplain hopen hfault heq hlen =>
      have hopening := map_content_of_openingFault?_eq_none hheld hfault
      refine ⟨by omega, ?_⟩
      rw [take_succ_body hhead]
      simp [hopening, heq]

/-- Below a difference nothing new is learnt. -/
theorem Drains.knows {line : Text} {t : Transition} (ht : r.Drains line t)
    {header : List Text} {mismatch : Option Mismatch} {x y : Text}
    (hxy : FirstDifference ((header ++ [line]).map content) r.header.lines x y)
    (hmis : mismatch = some ⟨Text.trim x, Text.trim y⟩) :
    r.Knows (header ++ (Settled.of t.effects).header)
      (Settled.of t.effects).after mismatch t.next := by
  cases ht with
  | ended => exact Or.inl ⟨x, y, by simpa using hxy, hmis⟩
  | continued => exact ⟨x, y, by simpa using hxy, hmis⟩
  | left => exact Or.inl ⟨x, y, by simpa using hxy, hmis⟩

/-- A step keeps what is known of the header, one case for each way to step. -/
theorem knows_step {effects : List Effect} {s : Search} {line : Text}
    {t : Transition} (harr : Arranged effects s)
    (h : r.Knows (Settled.of effects).header (Settled.of effects).after
      (Settled.of effects).mismatch s) (ht : r.Steps s line t) :
    r.Knows (Settled.of (effects ++ t.effects)).header
      (Settled.of (effects ++ t.effects)).after
      (Settled.of (effects ++ t.effects)).mismatch t.next := by
  cases ht with
  | scan ht =>
      obtain ⟨hheader, hafter, hmis⟩ := harr.missing rfl
      simpa [hheader, hafter, hmis] using ht.knows (Or.inl rfl)
  | opened hopen ht =>
      obtain ⟨hheader, hafter, hmis⟩ := harr.missing rfl
      simpa [hheader, hafter, hmis] using ht.knows h
  | unmarked _ ht | unopened _ _ ht =>
      obtain ⟨hheader, hafter, hmis⟩ := harr.missing rfl
      simpa [hheader, hafter, hmis] using ht.knows (Or.inl rfl)
  | second heq =>
      obtain ⟨hheader, -, hmis⟩ := harr.missing rfl
      obtain ⟨hlen, hheld⟩ := h
      refine ⟨hlen, by simp [hmis], ?_⟩
      rw [take_succ_body heq]
      simp [hheader, hheld]
  | unlike hne hcont =>
      -- the first line agreed, so the second is where the header differs
      obtain ⟨hheader, -, hmis⟩ := harr.missing rfl
      obtain ⟨hlen, hheld⟩ := h
      refine ⟨content line, r.header.body[1], ⟨_, [], _, ?_,
        r.lines_eq_take_append hlen, ?_⟩, ?_⟩
      · simp [hheader, hheld, mismatchAt]
      · intro heq
        exact hne (by rw [heq, List.getElem?_eq_getElem hlen])
      · simp [hmis, mismatchAt, List.getElem?_eq_getElem hlen]
  | @closed place _ hlen hterm =>
      -- past the end of the body, all expected lines have been read
      obtain ⟨hle, hmis, hheader⟩ := h
      rw [List.take_of_length_le hlen] at hheader
      exact ⟨by simp [hmis], line, by simp [hheader, Header.lines], hterm⟩
  | @overrun place _ hlen hterm =>
      obtain ⟨hle, hmis, hheader⟩ := h
      have hafter := harr.after rfl
      rw [List.take_of_length_le hlen] at hheader
      exact Or.inr ⟨by simp [hmis], line, [],
        by simp [hheader, hafter, Header.lines], hterm⟩
  | @agreed place _ hlt heq =>
      obtain ⟨hle, hmis, hheader⟩ := h
      refine ⟨hlt, by simp [hmis], ?_⟩
      rw [take_succ_body heq]
      simp [hheader]
  | @disagreed place _ t hlt hne ht =>
      obtain ⟨hle, hmis, hheader⟩ := h
      have hafter := harr.after rfl
      have hxy : FirstDifference
          (((Settled.of effects).header ++ [line]).map content) r.header.lines
          (content line) r.header.body[place] := by
        refine ⟨_, [], _, ?_, r.lines_eq_take_append hlt, ?_⟩
        · simp [hheader]
        · intro heq
          exact hne (by rw [heq, List.getElem?_eq_getElem hlt])
      have := ht.knows hxy rfl
      simpa [hafter, hmis, mismatchAt, List.getElem?_eq_getElem hlt] using this
  | drain ht =>
      obtain ⟨x, y, hxy, hmis⟩ := h
      have hafter := harr.after rfl
      have hnew : FirstDifference
          (((Settled.of effects).header ++ [line]).map content) r.header.lines
          x y := by
        rw [List.map_append]
        exact hxy.append _
      have := ht.knows hnew rfl
      simpa [hafter, hmis] using this
  | matched =>
      obtain ⟨hmis, last, hheader, hterm⟩ := h
      exact ⟨by simp [hmis], last, by simpa using hheader, hterm⟩
  | differed =>
      rcases h with ⟨x, y, hxy, hmis⟩ | ⟨hmis, last, more, hfound, hterm⟩
      · refine Or.inl ⟨x, y, ?_, by simp [hmis]⟩
        have := hxy.append [content line]
        simpa using this
      · refine Or.inr ⟨by simp [hmis], last, more ++ [content line], ?_, hterm⟩
        have := congrArg (· ++ [content line]) hfound
        simpa using this

/-- After every run the state knows the header. -/
theorem knows_run (lines : List Text) :
    r.Knows (Settled.of (r.run .scanning lines).1).header
      (Settled.of (r.run .scanning lines).1).after
      (Settled.of (r.run .scanning lines).1).mismatch
      (r.run .scanning lines).2 := by
  refine (run_induction (P := fun _ effects s => Arranged effects s
    ∧ r.Knows (Settled.of effects).header (Settled.of effects).after
      (Settled.of effects).mismatch s) ?_ ?_ lines).2
  · exact ⟨arranged_run (r := r) [], trivial⟩
  · intro seen effects s line t ih ht
    exact ⟨ih.1.step ht, knows_step ih.1 ih.2 ht⟩

end Recognizer

end CopyrightNotice
