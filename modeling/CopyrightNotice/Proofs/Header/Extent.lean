/-
How far a stale header reaches.

# Where the search resumes

Behind the first difference the search looks for the header's last line,
but not always from that difference on. The lines up to the opener are
the header's in any case, and so is the second line of the notice when
it is the one that differs; only from the third on the line that differs
may itself be the last (`resume`). From there a stale header takes the
lines that carry a comment on and the line that ends it (`reach`).

# The invariant

`Extends` says of a search that has gone wrong how its header splits
there. The place of the first difference, once there is one, stays where
it is (`DiffersAt.append`), and so does the reach of lines one of which
is no inner line (`reach_append`); so the split of a run that is over is
the split of all lines from the header on (`header_of_differsAt`).
-/
import CopyrightNotice.Proofs.Header.Acceptance
import CopyrightNotice.Proofs.Header.Block

namespace CopyrightNotice

open Text (content)

-- ================================================== place of difference

/-- The lists have different entries at a place and the same in front of
it. -/
def DiffersAt (found expected : List Text) (place : Nat) : Prop :=
  ∃ common x y more rest, found = common ++ x :: more
    ∧ expected = common ++ y :: rest ∧ x ≠ y ∧ common.length = place

namespace DiffersAt

variable {found expected : List Text} {place : Nat}

/-- A difference stays where more lines come. -/
theorem append (h : DiffersAt found expected place) (new : List Text) :
    DiffersAt (found ++ new) expected place := by
  obtain ⟨common, x, y, more, rest, rfl, hexp, hne, hlen⟩ := h
  exact ⟨common, x, y, more ++ new, rest, by simp, hexp, hne, hlen⟩

/-- At the difference the two lists differ. -/
theorem getElem?_ne (h : DiffersAt found expected place) :
    found[place]? ≠ expected[place]? := by
  obtain ⟨common, x, y, more, rest, rfl, rfl, hne, rfl⟩ := h
  simpa using hne

/-- In front of the difference they do not. -/
theorem getElem?_eq (h : DiffersAt found expected place) {i : Nat}
    (hi : i < place) : found[i]? = expected[i]? := by
  obtain ⟨common, x, y, more, rest, rfl, rfl, hne, rfl⟩ := h
  rw [List.getElem?_append_left hi, List.getElem?_append_left hi]

/-- Both lists reach the place of the difference. -/
theorem lt_length (h : DiffersAt found expected place) :
    place < found.length ∧ place < expected.length := by
  obtain ⟨common, x, y, more, rest, rfl, rfl, hne, rfl⟩ := h
  simp

/-- There is one place of the first difference only. -/
theorem unique (h : DiffersAt found expected place) {place' : Nat}
    (h' : DiffersAt found expected place') : place = place' := by
  rcases Nat.lt_trichotomy place place' with hlt | heq | hgt
  · exact absurd (h'.getElem?_eq hlt) h.getElem?_ne
  · exact heq
  · exact absurd (h.getElem?_eq hgt) h'.getElem?_ne

/-- A list with a difference does not begin the other one. -/
theorem not_prefix (h : DiffersAt found expected place) :
    ¬ found <+: expected := by
  rintro ⟨tail, rfl⟩
  have hne := h.getElem?_ne
  rw [List.getElem?_append_left h.lt_length.1] at hne
  exact hne rfl

/-- Nor does the other one begin it. -/
theorem not_prefix' (h : DiffersAt found expected place) :
    ¬ expected <+: found := by
  rintro ⟨tail, rfl⟩
  have hne := h.getElem?_ne
  rw [List.getElem?_append_left h.lt_length.2] at hne
  exact hne rfl

/-- A common front moves the difference. -/
theorem append_left (h : DiffersAt found expected place) (front : List Text) :
    DiffersAt (front ++ found) (front ++ expected) (front.length + place) := by
  obtain ⟨common, x, y, more, rest, rfl, rfl, hne, rfl⟩ := h
  exact ⟨front ++ common, x, y, more, rest, by simp, by simp, hne, by simp⟩

/-- What both lists begin with ends at the first difference at the
latest. -/
theorem length_le (h : DiffersAt found expected place) {common : List Text}
    (hfound : common <+: found) (hexpected : common <+: expected) :
    common.length ≤ place := by
  by_contra hlt
  have hlt := Nat.lt_of_not_le hlt
  obtain ⟨more, rfl⟩ := hfound
  obtain ⟨rest, rfl⟩ := hexpected
  refine h.getElem?_ne ?_
  rw [List.getElem?_append_left hlt, List.getElem?_append_left hlt]

end DiffersAt

/-- One list begins with the other, or they differ somewhere first. -/
theorem prefix_or_differsAt (found expected : List Text) :
    found <+: expected ∨ expected <+: found
      ∨ ∃ place, DiffersAt found expected place := by
  induction found generalizing expected with
  | nil => exact Or.inl (List.nil_prefix)
  | cons x found ih =>
      cases expected with
      | nil => exact Or.inr (Or.inl List.nil_prefix)
      | cons y expected =>
          by_cases hne : x = y
          · rw [hne]
            rcases ih expected with h | h | ⟨place, common, x, y, more, rest,
              h, h', hxy, hlen⟩
            · exact Or.inl (List.cons_prefix_cons.2 ⟨rfl, h⟩)
            · exact Or.inr (Or.inl (List.cons_prefix_cons.2 ⟨rfl, h⟩))
            · exact Or.inr (Or.inr ⟨place + 1, _ :: common, x, y, more, rest,
                by rw [h]; rfl, by rw [h']; rfl, hxy, by simp [hlen]⟩)
          · exact Or.inr (Or.inr ⟨0, [], x, y, found, expected, rfl,
              rfl, hne, rfl⟩)

-- ============================================================== reach

namespace CommentFormat

variable {f : CommentFormat}

/-- A line within a stale header: it carries the comment on and does not
end it. -/
def isInner (f : CommentFormat) (line : Text) : Bool :=
  !f.isEnd line && f.isContinuation line

theorem isInner_append_lf (line : Text) :
    f.isInner (line ++ ['\n']) = f.isInner line := by
  rw [isInner, isEnd_append_lf, isContinuation_append_lf, isInner]

@[simp] theorem isInner_content (line : Text) :
    f.isInner (content line) = f.isInner line := by
  rw [isInner, isEnd_content, isContinuation_content, isInner]

/-- How many of the lines a stale header takes: the inner lines in front
and the line that ends it. -/
def reach (f : CommentFormat) : List Text → Nat
  | [] => 0
  | line :: more =>
    if f.isEnd line then 1
    else if f.isContinuation line then reach f more + 1
    else 0

/-- A header reaches up to its end, this line included. -/
theorem reach_of_isEnd {line : Text} (h : f.isEnd line = true)
    (more : List Text) : f.reach (line :: more) = 1 := by
  rw [reach, if_pos h]

/-- A line that no longer goes on with the header is left out. -/
theorem reach_of_left {line : Text} (hend : f.isEnd line = false)
    (hcont : f.isContinuation line = false) (more : List Text) :
    f.reach (line :: more) = 0 := by
  simp [reach, hend, hcont]

/-- A line that ends or goes on with the header is reached. -/
theorem reach_pos {line : Text}
    (h : f.isEnd line = true ∨ f.isContinuation line = true)
    (more : List Text) : 0 < f.reach (line :: more) := by
  rw [reach]
  split
  · exact Nat.one_pos
  · rename_i hend
    rw [if_pos (h.resolve_left hend)]
    exact Nat.succ_pos _

/-- All lines inside are reached, and then what comes behind them. -/
theorem reach_of_inner {inner : List Text}
    (h : ∀ line ∈ inner, f.isInner line = true) (more : List Text) :
    f.reach (inner ++ more) = inner.length + f.reach more := by
  induction inner with
  | nil => simp
  | cons line inner ih =>
      have hline := h line (List.mem_cons_self ..)
      simp only [isInner, Bool.and_eq_true, Bool.not_eq_true'] at hline
      rw [List.cons_append, reach, if_neg (by simp [hline.1]), if_pos hline.2,
        ih fun l hl => h l (List.mem_cons_of_mem _ hl), List.length_cons]
      omega

/-- Lines behind one that is no inner line are out of reach. -/
theorem reach_append {lines : List Text}
    (h : ∃ line ∈ lines, f.isInner line = false) (more : List Text) :
    f.reach (lines ++ more) = f.reach lines := by
  induction lines with
  | nil =>
      obtain ⟨line, hl, -⟩ := h
      cases hl
  | cons line lines ih =>
      rw [List.cons_append, reach, reach]
      split
      · rfl
      · rename_i hend
        split
        · rename_i hcont
          rw [ih]
          obtain ⟨l, hl, hinner⟩ := h
          rcases List.mem_cons.1 hl with rfl | hl
          · simp [isInner, hend, hcont] at hinner
          · exact ⟨l, hl, hinner⟩
        · rfl

/-- A header does not reach beyond the lines. -/
theorem reach_le_length (lines : List Text) :
    f.reach lines ≤ lines.length := by
  induction lines with
  | nil => simp [reach]
  | cons line lines ih =>
      rw [reach, List.length_cons]
      split
      · omega
      · split <;> omega

/-- A line that ends the header bounds the reach of lines. -/
theorem reach_append_le {lines : List Text}
    (h : ∃ line ∈ lines, f.isEnd line = true) (more : List Text) :
    f.reach (lines ++ more) ≤ lines.length := by
  obtain ⟨line, hl, hend⟩ := h
  rw [reach_append ⟨line, hl, by simp [isInner, hend]⟩]
  exact reach_le_length lines

end CommentFormat

namespace Recognizer

variable {r : Recognizer}

-- ============================================================= resume

/-- The place of the opener among the lines of a header. -/
def openerPlace (r : Recognizer) : List Text → Nat
  | [] => 0
  | line :: _ => if r.isMarker line then 1 else 0

/-- The place from which on a header's last line is looked for. -/
def resume (opener difference : Nat) : Nat :=
  if difference ≤ opener then opener + 1
  else if difference = opener + 1 then opener + 2
  else difference

/-- The search for the end is taken up again no earlier than at the
difference. -/
private theorem le_resume (opener difference : Nat) :
    difference ≤ resume opener difference := by
  unfold resume
  split
  · omega
  · split <;> omega

/-- Where the search resumes in the body does not hang on the opening. -/
theorem resume_add (opener place : Nat) :
    resume opener (opener + place) = opener + resume 0 place := by
  match place with
  | 0 => simp [resume]
  | 1 => simp [resume]
  | place + 2 => simp [resume]

/-- Behind the second place it is taken up at the difference. -/
theorem resume_zero_of_two_le {place : Nat} (h : 2 ≤ place) :
    resume 0 place = place := by
  rw [resume, if_neg (by omega), if_neg (by omega)]

/-- It is taken up within the bound of both places. -/
theorem resume_le {opener difference bound : Nat}
    (hopener : opener + 2 ≤ bound) (hdifference : difference ≤ bound) :
    resume opener difference ≤ bound := by
  unfold resume
  split
  · omega
  · split <;> omega

/-- More lines do not change where the opener stands. -/
theorem openerPlace_append {lines : List Text} (h : lines ≠ [])
    (new : List Text) :
    r.openerPlace (lines ++ new) = r.openerPlace lines := by
  cases lines with
  | nil => exact absurd rfl h
  | cons => rfl

/-- The held lines of a scan stand above the opener. -/
theorem openerPlace_of_held {held : List Text} {line : Text}
    (hheld : r.Held held)
    (hplain : (held.isEmpty && r.isMarker line) = false) :
    r.openerPlace (held ++ [line]) = held.length := by
  rcases hheld with rfl | ⟨m, rfl, hm⟩
  · have hmark : r.isMarker line = false := by simpa using hplain
    simp [openerPlace, hmark]
  · simp [openerPlace, hm]

/-- Under the expected opening lines stands the opener. -/
theorem openerPlace_of_map_content {lines more : List Text}
    (h : lines.map content = r.header.opening.toList ++ more) :
    r.openerPlace lines = r.header.opening.toList.length := by
  cases ho : r.header.opening with
  | none =>
      have hmark := isMarker_of_opening_none ho
      cases lines with
      | nil => rfl
      | cons line lines => simp [openerPlace, hmark]
  | some opening =>
      rw [ho] at h
      obtain ⟨line, rest, rfl, hline, -⟩ := List.map_eq_cons_iff.1 h
      simp [openerPlace, isMarker_of_content_eq ho hline]

-- ======================================================== the invariant

/-- The lines from a header on, split where the search for its last line
resumes, the header being the first part and what the second reaches. -/
def Splits (r : Recognizer) (header after forced more : List Text) : Prop :=
  ∃ place, DiffersAt ((header ++ after).map content) r.header.lines place
    ∧ header ++ after = forced ++ more
    ∧ forced.length = resume (r.openerPlace (header ++ after)) place

/-- What a state says of the lines of the header. -/
def Extends (r : Recognizer) (header after : List Text) : Search → Prop
  | .scanning | .marker _ | .opener _ | .matched => True
  | .comparing place => place < r.header.body.length → 2 ≤ place
  | .draining => ∃ forced inner, r.Splits header after forced inner
      ∧ ∀ line ∈ inner, r.format.isInner line = true
  | .differed => header.map content = r.header.lines
      ∨ ∃ forced more, r.Splits header after forced more
        ∧ (∃ line ∈ more, r.format.isInner line = false)
        ∧ header = forced ++ more.take (r.format.reach more)

/-- A split of the lines goes on where more of them come. -/
theorem Splits.append {header after forced more : List Text}
    (h : r.Splits header after forced more) (new : List Text) :
    r.Splits header (after ++ new) forced (more ++ new) := by
  obtain ⟨place, hdiffers, hsplit, hlen⟩ := h
  have hne : header ++ after ≠ [] := by
    intro hnil
    rw [hnil] at hdiffers
    exact absurd hdiffers.lt_length.1 (Nat.not_lt_zero _)
  refine ⟨place, ?_, ?_, ?_⟩
  · rw [← List.append_assoc, List.map_append]
    exact hdiffers.append _
  · rw [← List.append_assoc, hsplit, List.append_assoc]
  · rw [← List.append_assoc, openerPlace_append hne, hlen]

/-- A line that a search scans extends what it has found. -/
theorem Scans.extends {held : List Text} {line : Text} {t : Transition}
    (hheld : r.Held held) (ht : r.Scans held line t) :
    r.Extends (Settled.of t.effects).header
      (Settled.of t.effects).after t.next := by
  have hpos := r.length_body_pos
  cases ht with
  | marker | text | first => trivial
  | misplaced hplain hopen fault hfault =>
      -- the first line of all is wrong
      obtain ⟨x, y, more, rest, hfound, hexp, hne, -⟩ :=
        differ_of_openingFault?_eq_some hplain hfault
      refine ⟨held ++ [line], [],
        ⟨0, ⟨[], x, y, more, rest, ?_, hexp, hne, rfl⟩, ?_, ?_⟩, nofun⟩
      · simpa using hfound
      · simp
      · simp [openerPlace_of_held hheld hplain, resume]
  | unlike hplain hopen hfault hne =>
      have hopening := map_content_of_openingFault?_eq_none hheld hfault
      have hlen : held.length = r.header.opening.toList.length := by
        simpa using congrArg List.length hopening
      refine ⟨held ++ [line], [],
        ⟨held.length, ⟨r.header.opening.toList, content line, r.header.body[0],
            [], r.header.body.drop 1, ?_, ?_, ?_, hlen.symm⟩, ?_, ?_⟩, nofun⟩
      · simp [hopening, mismatchAt]
      · simpa using r.lines_eq_take_append hpos
      · rwa [List.getElem_zero_eq_head]
      · simp [mismatchAt]
      · simp [mismatchAt, openerPlace_of_held hheld hplain, resume]
  | whole _ _ _ _ hlen => exact fun hlt => absurd hlt (by omega)

/-- A line below a difference is an inner line of the header, its last one
or out of reach. -/
theorem Drains.extends {line : Text} {t : Transition} (ht : r.Drains line t)
    {header forced inner : List Text}
    (hsplits : r.Splits header [line] forced (inner ++ [line]))
    (hinner : ∀ l ∈ inner, r.format.isInner l = true) :
    r.Extends (header ++ (Settled.of t.effects).header)
      (Settled.of t.effects).after t.next := by
  have hheader : header = forced ++ inner := by
    obtain ⟨-, -, hsplit, -⟩ := hsplits
    rw [← List.append_assoc] at hsplit
    exact List.append_cancel_right hsplit
  have hsplits' : r.Splits (header ++ [line]) [] forced (inner ++ [line]) := by
    simpa [Splits] using hsplits
  cases ht with
  -- the line that ends the header is in reach
  | ended hend =>
      refine Or.inr ⟨forced, inner ++ [line], hsplits',
        ⟨line, by simp, ?_⟩, ?_⟩
      · simp [CommentFormat.isInner, hend]
      · rw [CommentFormat.reach_of_inner hinner,
          CommentFormat.reach_of_isEnd hend]
        simp [hheader, List.take_of_length_le]
  | continued hend hcont =>
      refine ⟨forced, inner ++ [line], hsplits', fun l hl => ?_⟩
      rcases List.mem_append.1 hl with hl | hl
      · exact hinner l hl
      · rw [List.mem_singleton.1 hl]
        simp [CommentFormat.isInner, hend, hcont]
  -- the line behind the header is not
  | left hend hcont =>
      refine Or.inr ⟨forced, inner ++ [line], by simpa using hsplits,
        ⟨line, by simp, ?_⟩, ?_⟩
      · simp [CommentFormat.isInner, hcont]
      · rw [CommentFormat.reach_of_inner hinner,
          CommentFormat.reach_of_left hend hcont]
        simp [hheader]

/-- Each step of a search extends what it has found, whatever state it is
in. -/
private theorem extends_step {effects : List Effect} {s : Search} {line : Text}
    {t : Transition} (harr : Arranged effects s)
    (hknows : r.Knows (Settled.of effects).header (Settled.of effects).after
      (Settled.of effects).mismatch s)
    (h : r.Extends (Settled.of effects).header (Settled.of effects).after s)
    (ht : r.Steps s line t) :
    r.Extends (Settled.of (effects ++ t.effects)).header
      (Settled.of (effects ++ t.effects)).after t.next := by
  cases ht with
  | scan ht =>
      obtain ⟨hheader, hafter, -⟩ := harr.missing rfl
      simpa [hheader, hafter] using ht.extends (Or.inl rfl)
  | opened hopen ht =>
      obtain ⟨hheader, hafter, -⟩ := harr.missing rfl
      simpa [hheader, hafter] using ht.extends hknows
  | unmarked _ ht | unopened _ _ ht =>
      obtain ⟨hheader, hafter, -⟩ := harr.missing rfl
      simpa [hheader, hafter] using ht.extends (Or.inl rfl)
  | second => exact fun _ => Nat.le_refl 2
  | @unlike held _ hne hcont =>
      -- the second line differs, and is the header's all the same
      obtain ⟨hheader, hafter, -⟩ := harr.missing rfl
      obtain ⟨hlen, hheld⟩ := hknows
      have hplace : r.openerPlace (held ++ [line])
          = r.header.opening.toList.length :=
        @openerPlace_of_map_content r _ (r.header.body.take 1
          ++ [content line])
          (by simp [hheld])
      have hcount : held.length = r.header.opening.toList.length + 1 := by
        have hcount := congrArg List.length hheld
        rw [List.length_map, List.length_append, List.length_take,
          Nat.min_eq_left (by omega)] at hcount
        exact hcount
      refine ⟨held ++ [line], [],
        ⟨held.length, ⟨_, content line, r.header.body[1], [], _, ?_,
            r.lines_eq_take_append hlen, ?_, ?_⟩, ?_, ?_⟩, nofun⟩
      · simp [hheader, hafter, hheld, mismatchAt]
      · intro heq
        exact hne (by rw [heq, List.getElem?_eq_getElem hlen])
      · rw [← hheld, List.length_map]
      · simp [hheader, hafter, mismatchAt]
      · simp [hheader, hafter, mismatchAt, hplace, hcount, resume]
  | closed => trivial
  | @overrun place _ hlen hterm =>
      obtain ⟨-, -, hheader⟩ := hknows
      rw [List.take_of_length_le hlen] at hheader
      exact Or.inl (by simp [hheader, Header.lines])
  | @agreed place _ hlt heq =>
      intro _
      have := h hlt
      omega
  | @disagreed place _ t hlt hne ht =>
      obtain ⟨hle, -, hheader⟩ := hknows
      have hafter := harr.after rfl
      have hplace : r.openerPlace ((Settled.of effects).header ++ [line])
          = r.header.opening.toList.length :=
        @openerPlace_of_map_content r _ (r.header.body.take place
          ++ [content line])
          (by simp [hheader])
      have hcount : (Settled.of effects).header.length
          = r.header.opening.toList.length + place := by
        have hcount := congrArg List.length hheader
        rwa [List.length_map, List.length_append, List.length_take,
          Nat.min_eq_left hle] at hcount
      have hsplits : r.Splits (Settled.of effects).header [line]
          (Settled.of effects).header ([] ++ [line]) := by
        refine ⟨(Settled.of effects).header.length,
          ⟨_, content line, r.header.body[place], [], _, ?_,
            r.lines_eq_take_append hlt, ?_, ?_⟩, rfl, ?_⟩
        · simp [hheader]
        · intro heq
          exact hne (by rw [heq, List.getElem?_eq_getElem hlt])
        · rw [← hheader, List.length_map]
        · have := h hlt
          rw [hplace, resume, if_neg (by omega), if_neg (by omega)]
      simpa [hafter, mismatchAt] using ht.extends hsplits nofun
  | drain ht =>
      obtain ⟨forced, inner, hsplits, hinner⟩ := h
      have hafter := harr.after rfl
      rw [hafter] at hsplits
      simpa [hafter]
        using ht.extends (by simpa using hsplits.append [line]) hinner
  | matched => trivial
  | differed =>
      rcases h with hheader | ⟨forced, more, hsplits, hleft, hheader⟩
      · exact Or.inl (by simpa using hheader)
      · refine Or.inr ⟨forced, more ++ [line], ?_, ?_, ?_⟩
        · simpa using hsplits.append [line]
        · obtain ⟨l, hl, hinner⟩ := hleft
          exact ⟨l, List.mem_append_left _ hl, hinner⟩
        · rw [CommentFormat.reach_append hleft,
            List.take_append_of_le_length (CommentFormat.reach_le_length more),
            ← hheader]
          simp

/-- After every run the state says how far the header reaches. -/
theorem extends_run (lines : List Text) :
    r.Extends (Settled.of (r.run .scanning lines).1).header
      (Settled.of (r.run .scanning lines).1).after
      (r.run .scanning lines).2 := by
  refine (run_induction (P := fun _ effects s => Arranged effects s
    ∧ r.Knows (Settled.of effects).header (Settled.of effects).after
      (Settled.of effects).mismatch s
    ∧ r.Extends (Settled.of effects).header (Settled.of effects).after s)
    ?_ ?_ lines).2.2
  · exact ⟨arranged_run (r := r) [], trivial, trivial⟩
  · intro seen effects s line t ⟨harr, hknows, hextends⟩ ht
    exact ⟨harr.step ht, knows_step harr hknows ht,
      extends_step harr hknows hextends ht⟩

-- ============================================================== extent

/-- A header that differs takes its lines up to the place where the search
for its end resumes, and what is in reach from there. -/
theorem header_of_differsAt {lines header after : List Text}
    (hheader : (Settled.of (r.run .scanning lines).1).header = header)
    (hafter : (Settled.of (r.run .scanning lines).1).after = after)
    (hm : (r.run .scanning lines).2.verdict ≠ .missing) {place : Nat}
    (hdiffers : DiffersAt ((header ++ after).map content)
      r.header.lines place) :
    ∃ forced more, header ++ after = forced ++ more
      ∧ forced.length = resume (r.openerPlace (header ++ after)) place
      ∧ header = forced ++ more.take (r.format.reach more)
      ∧ after = more.drop (r.format.reach more) := by
  have hextends := extends_run (r := r) lines
  have hknows := knows_run (r := r) lines
  have hover := (arranged_run (r := r) lines).after
  rw [hheader, hafter] at hextends hknows
  rw [hafter] at hover
  generalize (r.run .scanning lines).2 = s at hm hextends hknows hover
  -- the header tells what is behind it
  have behind : ∀ {forced more : List Text}, header ++ after = forced ++ more →
      header = forced ++ more.take (r.format.reach more) →
      after = more.drop (r.format.reach more) := by
    intro forced more hsplit hheader
    rw [hheader, List.append_assoc, List.append_cancel_left_eq] at hsplit
    have hmore := List.take_append_drop (r.format.reach more) more
    exact List.append_cancel_left (hsplit.trans hmore.symm)
  cases s with
  | scanning | marker | opener => exact absurd rfl hm
  | comparing count =>
      -- all lines read so far are the expected ones
      obtain ⟨-, -, hheader⟩ := hknows
      refine absurd ⟨r.header.body.drop count, ?_⟩ hdiffers.not_prefix
      rw [hover rfl, List.append_nil, hheader, List.append_assoc,
        List.take_append_drop]
      rfl
  | matched =>
      obtain ⟨-, last, hheader, -⟩ := hknows
      refine absurd ⟨content last :: after.map content, ?_⟩
        hdiffers.not_prefix'
      simp [hheader]
  | draining =>
      obtain ⟨forced, inner, ⟨place', hdiffers', hsplit, hlen⟩, hinner⟩ :=
        hextends
      rw [hdiffers'.unique hdiffers] at hlen
      have hheader : header = forced ++ inner.take (r.format.reach inner) := by
        have hreach := CommentFormat.reach_of_inner hinner []
        rw [List.append_nil, CommentFormat.reach, Nat.add_zero] at hreach
        rw [hreach, List.take_length, ← hsplit, hover rfl, List.append_nil]
      exact ⟨forced, inner, hsplit, hlen, hheader, behind hsplit hheader⟩
  | differed =>
      rcases hextends with hheader | ⟨forced, more,
        ⟨place', hdiffers', hsplit, hlen⟩, -, hheader⟩
      · refine absurd ⟨after.map content, ?_⟩ hdiffers.not_prefix'
        rw [List.map_append, hheader]
      · rw [hdiffers'.unique hdiffers] at hlen
        exact ⟨forced, more, hsplit, hlen, hheader, behind hsplit hheader⟩

/-- What the lines from a header on have in common with the expected ones
is part of the header. -/
theorem length_le_header {lines common : List Text}
    (hm : (r.run .scanning lines).2.verdict ≠ .missing)
    (hfound : common <+: ((Settled.of (r.run .scanning lines).1).header
      ++ (Settled.of (r.run .scanning lines).1).after).map content)
    (hexpected : common <+: r.header.lines) :
    common.length ≤ (Settled.of (r.run .scanning lines).1).header.length := by
  have hextends := extends_run (r := r) lines
  have hknows := knows_run (r := r) lines
  have hover := (arranged_run (r := r) lines).after
  generalize r.run .scanning lines = run at hm hfound hextends hknows hover ⊢
  obtain ⟨effects, s⟩ := run
  simp only at hm hfound hextends hknows hover ⊢
  cases s with
  | scanning | marker | opener => exact absurd rfl hm
  | comparing | draining =>
      -- nothing is behind the header yet
      have hle := hfound.length_le
      rwa [hover rfl, List.append_nil, List.length_map] at hle
  | matched =>
      obtain ⟨-, last, hheader, -⟩ := hknows
      have hlen := congrArg List.length hheader
      have hle := hexpected.length_le
      rw [List.length_map, List.length_append] at hlen
      omega
  | differed =>
      rcases hextends with hheader | ⟨forced, more,
        ⟨place, hdiffers, -, hlen⟩, -, hheader⟩
      · have hlen := congrArg List.length hheader
        rw [List.length_map] at hlen
        rw [hlen]
        exact hexpected.length_le
      · have hplace := hdiffers.length_le hfound hexpected
        have hresume := le_resume (r.openerPlace ((Settled.of effects).header
          ++ (Settled.of effects).after)) place
        rw [hheader, List.length_append]
        omega

/-- A header that is the expected one but for the line below it ends with
the expected lines. -/
theorem header_of_overrun {lines : List Text}
    (hm : (r.run .scanning lines).2.verdict ≠ .missing)
    (hmatched : (r.run .scanning lines).2 ≠ .matched) {last : Text}
    {more : List Text}
    (hfound : ((Settled.of (r.run .scanning lines).1).header
        ++ (Settled.of (r.run .scanning lines).1).after).map content
      = r.header.lines ++ last :: more) :
    (Settled.of (r.run .scanning lines).1).header.map content
      = r.header.lines := by
  have hextends := extends_run (r := r) lines
  have hknows := knows_run (r := r) lines
  have hover := (arranged_run (r := r) lines).after
  have hprefix : r.header.lines
      <+: ((Settled.of (r.run .scanning lines).1).header
        ++ (Settled.of (r.run .scanning lines).1).after).map
        content :=
    ⟨last :: more, hfound.symm⟩
  generalize r.run .scanning lines
    = run at hm hmatched hfound hextends hknows hover hprefix ⊢
  obtain ⟨effects, s⟩ := run
  simp only at hm hmatched hfound hextends hknows hover hprefix ⊢
  cases s with
  | scanning | marker | opener => exact absurd rfl hm
  | comparing place =>
      -- the line below the expected ones would have been read
      obtain ⟨hle, -, hheader⟩ := hknows
      have hlen := congrArg List.length hfound
      have hread := congrArg List.length hheader
      simp [hover rfl, Header.lines] at hlen hread
      omega
  | draining =>
      obtain ⟨x, y, hxy, -⟩ := hknows
      rw [hover rfl, List.append_nil] at hprefix
      exact absurd hprefix hxy.not_prefix
  | matched => exact absurd rfl hmatched
  | differed =>
      rcases hextends with hheader | ⟨_, _, ⟨_, hdiffers, -⟩, -⟩
      · exact hheader
      · exact absurd hprefix hdiffers.not_prefix'

/-- The lines behind a header that differs are those out of reach of where
the search for its end resumes. -/
theorem after_of_differsAt {lines front behind : List Text}
    (hm : (r.run .scanning lines).2.verdict ≠ .missing)
    (hfound : (Settled.of (r.run .scanning lines).1).header
        ++ (Settled.of (r.run .scanning lines).1).after
      = front ++ behind) {place : Nat}
    (hdiffers : DiffersAt ((front ++ behind).map content) r.header.lines place)
    (hlen : front.length = resume (r.openerPlace (front ++ behind)) place) :
    (Settled.of (r.run .scanning lines).1).after
      = behind.drop (r.format.reach behind) := by
  rw [← hfound] at hdiffers hlen
  obtain ⟨forced, more, hsplit, hforced, -, hafter⟩ :=
    header_of_differsAt rfl rfl hm hdiffers
  obtain ⟨-, rfl⟩ :=
    List.append_inj (hfound.symm.trans hsplit) (hlen.trans hforced.symm)
  exact hafter

end Recognizer

end CopyrightNotice
