/-
What may be left of an old header when the notice changes.

A header that differs is followed to the line that ends it. Where every
line of a header ends a comment, the first line looked at is that line,
and what of the old block is below it stays in the file.

# Giving way

`GivesWay` lists the cases in which nothing stays, by how the body lines
that stand in the text and those that are expected relate. It is exact for
every header that the search finds where it stands and whose last line
ends it (`Carries.correction?_eq_iff`).
-/
import CopyrightNotice.Proofs.Header.Frame
import CopyrightNotice.Proofs.Header.Replacement
import Mathlib.Data.List.Infix

namespace CopyrightNotice

open Text (content)

/-- The cases in which an old header gives way to a new one as a whole,
given their body lines and the text below the old one. -/
inductive GivesWay (f : CommentFormat) (rest : Text) (old new : List Text) :
    Prop where
  /-- The old body is one line, and it differs. -/
  | only {x y : Text} {others : List Text} (hold : old = [x]) (hnew : new
      = y :: others)
      (hne : x ≠ y)
  /-- The old body has two lines, and the second is the first to differ. -/
  | second {first x y : Text} {others : List Text} (hold : old = [first, x])
      (hnew : new = first :: y :: others) (hne : x ≠ y)
  /-- The new body begins with the old one, of two lines or more, and a line
  that is not empty follows. -/
  | longer {y : Text} {others : List Text} (htwo : 2 ≤ old.length)
      (hnew : new = old ++ y :: others) (hne : y ≠ [])
  /-- The new body begins with the old one and an empty line, and no comment
  stands below the old header. -/
  | spaced {others : List Text} (hnew : new = old ++ [] :: others)
      (hrest : ∀ line, (Text.lines rest).head? = some line →
        f.isEnd line = false ∧ f.isContinuation line = false)

/-- Behind a difference in the first two lines of the old body, a search that
resumes below that body has passed it as a whole. From the third line on it
resumes in the body. -/
private theorem GivesWay.of_differsAt {f : CommentFormat} {rest : Text}
    {old new : List Text} {place : Nat} (h : DiffersAt old new place)
    (hle : old.length ≤ Recognizer.resume 0 place) :
    GivesWay f rest old new := by
  have hplace := h.lt_length.1
  obtain ⟨common, x, y, behind, others, hold, hnew, hne, hcount⟩ := h
  have hlen := congrArg List.length hold
  rw [List.length_append, List.length_cons, hcount] at hlen
  match place with
  | 0 =>
      change old.length ≤ 1 at hle
      obtain rfl : behind = [] := List.eq_nil_of_length_eq_zero (by omega)
      obtain rfl := List.eq_nil_of_length_eq_zero hcount
      exact .only hold hnew hne
  | 1 =>
      change old.length ≤ 2 at hle
      obtain rfl : behind = [] := List.eq_nil_of_length_eq_zero (by omega)
      obtain ⟨a, rfl⟩ := List.length_eq_one_iff.1 hcount
      exact .second hold hnew hne
  | place + 2 =>
      rw [Recognizer.resume_zero_of_two_le (by omega)] at hle
      omega

namespace Recognizer.Carries

variable {r : Recognizer} {t : Text} {front top : List Text} {first : Text}
  {more : List Text} {rest : Text}

section
variable (h : r.Carries t front top first more rest)
  (hbegins : ¬ r.FalseStart (front ++ top).getLast? first
  (more ++ [['\n']]).head?)
include h hbegins

-- ============================================== behind the header found

/-- A body that differs is followed from where the search for its end
resumes. -/
theorem after_eq_drop {block behind : List Text} {place : Nat}
    (hsplit : first :: (more ++ ['\n'] :: (Text.lines rest ++ [[]]))
      = block ++ behind)
    (hdiffers : DiffersAt ((block ++ behind).map content) r.header.body place)
    (hlen : block.length = resume 0 place) :
    (Settled.of (r.run .scanning t.closedLines).1).after
      = behind.drop (r.format.reach behind) := by
  obtain ⟨hm, -, hfound⟩ := h.settled hbegins
  have htop := congrArg List.length h.opening
  rw [List.length_map] at htop
  have hcontent : (top ++ block ++ behind).map content
      = r.header.opening.toList ++ (block ++ behind).map content := by
    rw [List.append_assoc, List.map_append, h.opening]
  rw [hsplit, ← List.append_assoc] at hfound
  have hplace := hdiffers.append_left r.header.opening.toList
  rw [← hcontent] at hplace
  refine after_of_differsAt hm hfound hplace ?_
  rw [openerPlace_of_map_content hcontent, resume_add,
    List.length_append, htop, hlen]

theorem not_matched_of_differsAt {place : Nat}
    (hdiffers : DiffersAt
      ((first :: (more ++ ['\n'] :: (Text.lines rest ++ [[]]))).map content)
      r.header.body place) :
    (r.run .scanning t.closedLines).2 ≠ .matched := by
  obtain ⟨hm, -, hfound⟩ := h.settled hbegins
  rw [ne_eq, matched_iff hm, hfound, List.map_append, h.opening]
  rintro ⟨last, below, heq, -⟩
  exact (hdiffers.append_left _).not_prefix' ⟨last :: below, heq.symm⟩

/-- Lines of the body that are the expected ones are not left behind. -/
theorem after_suffix {front' behind : List Text}
    (hsplit : first :: (more ++ ['\n'] :: (Text.lines rest ++ [[]]))
      = front' ++ behind) (hcommon : front'.map content <+: r.header.body) :
    (Settled.of (r.run .scanning t.closedLines).1).after <:+ behind := by
  obtain ⟨hm, -, hfound⟩ := h.settled hbegins
  rw [hsplit, ← List.append_assoc] at hfound
  have hexpected : (top ++ front').map content <+: r.header.lines := by
    rw [List.map_append, h.opening, Header.lines]
    exact (List.prefix_append_right_inj _).2 hcommon
  have hle := length_le_header hm
    (by rw [hfound]; exact (List.prefix_append _ _).map content) hexpected
  rw [List.length_map] at hle
  obtain ⟨within, hwithin⟩ := List.prefix_of_prefix_length_le
    (List.prefix_append (top ++ front') behind) ⟨_, hfound⟩ hle
  rw [← hwithin, List.append_assoc, List.append_cancel_left_eq] at hfound
  exact ⟨within, hfound⟩

/-- Where the search resumes below the block, at the blank line, nothing of
the block stays. -/
private theorem after_of_whole {place : Nat}
    (hdiffers : DiffersAt ((first :: more).map content ++ [[]])
      r.header.body place) (hlen : (first :: more).length = resume 0 place) :
    (r.run .scanning t.closedLines).2 ≠ .matched
      ∧ (Settled.of (r.run .scanning t.closedLines).1).after
        = Text.lines rest ++ [[]] := by
  have hblock : ((first :: more) ++ ['\n'] :: (Text.lines rest ++ [[]])).map
        content
      = (first :: more).map content ++ [[]]
        ++ (Text.lines rest ++ [[]]).map content := by
    rw [List.map_append, List.append_assoc]
    rfl
  have hdiffers' := hdiffers.append ((Text.lines rest ++ [[]]).map content)
  rw [← hblock] at hdiffers'
  refine ⟨h.not_matched_of_differsAt hbegins hdiffers', ?_⟩
  rw [h.after_eq_drop hbegins rfl hdiffers' hlen,
    CommentFormat.reach_of_isEnd rfl]
  rfl

/-- A body that goes on with an empty line takes the blank line along, and
no line below it but those of a comment. -/
private theorem after_of_spaced {others : List Text} (hne : others ≠ [])
    (hnew : r.header.body = (first :: more).map content ++ [] :: others)
    (hbody : ∀ line ∈ others, r.format.isEnd line = true
      ∨ r.format.isContinuation line = true)
    (hrest : ∀ line, (Text.lines rest).head? = some line →
      r.format.isEnd line = false ∧ r.format.isContinuation line = false) :
    (r.run .scanning t.closedLines).2 ≠ .matched
    ∧ (Settled.of (r.run .scanning t.closedLines).1).after.flatten = rest := by
  obtain ⟨y, others, rfl⟩ := List.exists_cons_of_ne_nil hne
  cases hlines : Text.lines rest with
  | nil =>
      -- nothing is left but the empty line below the text
      have hnil : rest = [] := by
        rw [← Text.flatten_lines rest, hlines]
        rfl
      constructor
      · obtain ⟨hm, -, hfound⟩ := h.settled hbegins
        rw [ne_eq, matched_iff hm, hfound]
        rintro ⟨last, below, heq, -⟩
        have hlen := congrArg List.length heq
        have htop := congrArg List.length h.opening
        simp [Header.lines, hnew, hlines] at hlen htop
        omega
      · have hsplit : first :: (more ++ ['\n'] :: (Text.lines rest ++ [[]]))
            = (first :: more ++ [['\n']]) ++ [[]] := by simp [hlines]
        have hcommon : (first :: more ++ [['\n']]).map content
            <+: r.header.body := by
          rw [hnew, List.map_append]
          exact ⟨y :: others, by simp⟩
        obtain ⟨within, hwithin⟩ := h.after_suffix hbegins hsplit hcommon
        have hflatten := congrArg List.flatten hwithin
        rw [List.flatten_append] at hflatten
        rw [hnil]
        exact (List.append_eq_nil_iff.1 hflatten).2
  | cons line below =>
      obtain ⟨hend, hcont⟩ := hrest line (by rw [hlines]; rfl)
      have hne : content line ≠ y := by
        intro heq
        have hline := hbody y (List.mem_cons_self ..)
        rw [← heq, CommentFormat.isEnd_content,
          CommentFormat.isContinuation_content, hend, hcont] at hline
        simp at hline
      have hsplit : first :: (more ++ ['\n'] :: (Text.lines rest ++ [[]]))
          = (first :: more ++ [['\n']]) ++ (line :: below ++ [[]]) := by
        simp [hlines]
      have hdiffers : DiffersAt
          (((first :: more ++ [['\n']]) ++ (line :: below ++ [[]])).map
            content)
          r.header.body ((first :: more).map content ++ [[]]).length :=
        ⟨_, content line, y, (below ++ [[]]).map content, others,
          by simp, by simp [hnew], hne, rfl⟩
      refine ⟨h.not_matched_of_differsAt hbegins (by rwa [hsplit]), ?_⟩
      rw [h.after_eq_drop hbegins hsplit hdiffers, List.cons_append,
        CommentFormat.reach_of_left hend hcont, List.drop_zero,
        ← List.cons_append, ← hlines, List.flatten_append, Text.flatten_lines]
      · simp
      · rw [resume_zero_of_two_le (by simp)]
        simp

/-- A header that gives way leaves the rest below it and no more. -/
private theorem after_of_givesWay
    (hlast : r.header.body.getLast r.header.body_ne_nil ≠ [])
    (hbody : [] ∈ r.header.body →
      ∀ line ∈ r.header.body, r.format.isEnd line = true
        ∨ r.format.isContinuation line = true)
    (hgives : GivesWay r.format rest ((first :: more).map content)
      r.header.body) :
    (r.run .scanning t.closedLines).2 ≠ .matched
      ∧ (Settled.of (r.run .scanning t.closedLines).1).after.flatten
        = rest := by
  -- three of the ways to give way force the whole header and leave the rest
  have whole : ∀ {place : Nat},
      DiffersAt ((first :: more).map content ++ [[]]) r.header.body place →
      (first :: more).length = resume 0 place →
      (r.run .scanning t.closedLines).2 ≠ .matched
      ∧ (Settled.of (r.run .scanning t.closedLines).1).after.flatten
        = rest := by
    intro place hdiffers hlen
    obtain ⟨hmatched, hafter⟩ := h.after_of_whole hbegins hdiffers hlen
    refine ⟨hmatched, ?_⟩
    rw [hafter, List.flatten_append, Text.flatten_lines]
    simp
  have hlength : ((first :: more).map content).length
      = (first :: more).length :=
    List.length_map ..
  cases hgives with
  | @only x y others hold hnew hne =>
      have hdiffers : DiffersAt ((first :: more).map content ++ [[]])
          r.header.body 0 := by
        rw [hold]
        exact ⟨[], x, y, [[]], others, rfl, hnew, hne, rfl⟩
      refine whole hdiffers ?_
      rw [← hlength, hold]
      rfl
  | @second a x y others hold hnew hne =>
      have hdiffers : DiffersAt ((first :: more).map content ++ [[]])
          r.header.body 1 := by
        rw [hold]
        exact ⟨[a], x, y, [[]], others, rfl, hnew, hne, rfl⟩
      refine whole hdiffers ?_
      rw [← hlength, hold]
      rfl
  | @longer y others htwo hnew hne =>
      refine whole ⟨_, [], y, [], others, rfl, hnew, Ne.symm hne, rfl⟩ ?_
      rw [resume_zero_of_two_le htwo, hlength]
  -- here the empty line is an expected one, and the line below it decides
  | @spaced others hnew hrest =>
      have hothers : others ≠ [] := by
        rintro rfl
        simp [hnew] at hlast
      exact h.after_of_spaced hbegins hothers hnew
        (fun line hl => hbody (by simp [hnew]) line (by simp [hnew, hl])) hrest

-- ==================================================== and the converse

/-- From a place of the block on where the search resumes, its last line is
reached at most. -/
private theorem after_of_cut {place : Nat}
    (hends : ∀ line, (first :: more).getLast? = some line →
      r.format.isEnd line = true)
    (hdiffers : DiffersAt ((first :: more).map content) r.header.body place)
    (hlt : resume 0 place < (first :: more).length) :
    ∃ left : List Text, (Settled.of (r.run .scanning t.closedLines).1).after
      = left ++ ['\n'] :: (Text.lines rest ++ [[]]) := by
  have hsplit : first :: (more ++ ['\n'] :: (Text.lines rest ++ [[]]))
      = (first :: more).take (resume 0 place)
        ++ ((first :: more).drop (resume 0 place)
          ++ ['\n'] :: (Text.lines rest ++ [[]])) := by
    rw [← List.append_assoc, List.take_append_drop]
    rfl
  have hdiffers' :=
    hdiffers.append (([] : Text) :: (Text.lines rest ++ [[]]).map content)
  have hcontent : (first :: (more ++ ['\n'] :: (Text.lines rest ++ [[]]))).map
        content
      = (first :: more).map content
        ++ [] :: (Text.lines rest ++ [[]]).map content := by
    rw [← List.cons_append, List.map_append]
    rfl
  -- the last line of the header ends it, so the blank line is out of reach
  have hreach : r.format.reach ((first :: more).drop (resume 0 place)
      ++ ['\n'] :: (Text.lines rest ++ [[]]))
      ≤ ((first :: more).drop (resume 0 place)).length := by
    obtain ⟨last, hlast⟩ : ∃ last, (first :: more).getLast? = some last :=
      ⟨_, List.getLast?_eq_some_getLast (List.cons_ne_nil _ _)⟩
    refine CommentFormat.reach_append_le ⟨last, List.mem_of_getLast? ?_,
        hends last hlast⟩ _
    rw [List.getLast?_drop, if_neg (Nat.not_le.2 hlt), hlast]
  have hlen : ((first :: more).take (resume 0 place)).length
      = resume 0 place := by
    rw [List.length_take]
    omega
  rw [← hcontent, hsplit] at hdiffers'
  rw [h.after_eq_drop hbegins hsplit hdiffers' hlen]
  exact ⟨_, List.drop_append_of_le_length hreach⟩

/-- A body with the expected lines and more below them leaves those. -/
private theorem after_of_overrun {line : Text} {others : List Text}
    (hmatched : (r.run .scanning t.closedLines).2 ≠ .matched)
    (hold : (first :: more).map content = r.header.body ++ line :: others) :
    ∃ left : List Text, (Settled.of (r.run .scanning t.closedLines).1).after
      = left ++ ['\n'] :: (Text.lines rest ++ [[]]) := by
  obtain ⟨hm, -, hfound⟩ := h.settled hbegins
  have hcontent : ((Settled.of (r.run .scanning t.closedLines).1).header
      ++ (Settled.of (r.run .scanning t.closedLines).1).after).map content
      = r.header.lines
        ++ line :: (others ++ []
        :: (Text.lines rest ++ [[]]).map content) := by
    rw [hfound, ← List.cons_append, List.map_append, List.map_append,
      h.opening, hold, Header.lines]
    simp
  have hheader := congrArg List.length (header_of_overrun hm hmatched hcontent)
  have htop := congrArg List.length h.opening
  rw [List.length_map, Header.lines, List.length_append] at hheader
  rw [List.length_map] at htop
  have hcount := congrArg List.length hold
  rw [List.length_map, List.length_append] at hcount
  have hsplit : (Settled.of (r.run .scanning t.closedLines).1).header
      ++ (Settled.of (r.run .scanning t.closedLines).1).after
      = (top ++ (first :: more).take r.header.body.length)
        ++ ((first :: more).drop r.header.body.length
          ++ ['\n'] :: (Text.lines rest ++ [[]])) := by
    rw [hfound, List.append_assoc, ← List.append_assoc (List.take _ _),
      List.take_append_drop]
    rfl
  refine ⟨_, (List.append_inj hsplit ?_).2⟩
  rw [hheader, List.length_append, htop, List.length_take]
  omega

/-- A body that goes on with an empty line takes along a line of a comment
below the blank line. -/
private theorem after_suffix_of_spaced {others : List Text} (hne : others ≠ [])
    (hnew : r.header.body = (first :: more).map content ++ [] :: others)
    {line : Text} {below : List Text}
    (hlines : Text.lines rest = line :: below)
    (hline : r.format.isEnd line = true
      ∨ r.format.isContinuation line = true) :
    (Settled.of (r.run .scanning t.closedLines).1).after
      <:+ below ++ [[]] := by
  obtain ⟨y, others, rfl⟩ := List.exists_cons_of_ne_nil hne
  by_cases heq : content line = y
  · -- the line is an expected one
    have hsplit : first :: (more ++ ['\n'] :: (Text.lines rest ++ [[]]))
        = (first :: more ++ [['\n'], line])
        ++ (below ++ [[]]) := by simp [hlines]
    refine h.after_suffix hbegins hsplit ?_
    rw [hnew, List.map_append]
    exact ⟨others, by simp [heq]⟩
  · have hsplit : first :: (more ++ ['\n'] :: (Text.lines rest ++ [[]]))
        = (first :: more ++ [['\n']]) ++ line :: (below ++ [[]]) := by
      simp [hlines]
    have hdiffers : DiffersAt
        (((first :: more ++ [['\n']]) ++ line :: (below ++ [[]])).map content)
        r.header.body ((first :: more).map content ++ [[]]).length :=
      ⟨_, content line, y, (below ++ [[]]).map content,
        others, by simp, by simp [hnew], heq, rfl⟩
    rw [h.after_eq_drop hbegins hsplit hdiffers]
    · obtain ⟨n, hn⟩ := Nat.exists_eq_succ_of_ne_zero
        (CommentFormat.reach_pos hline (below ++ [[]])).ne'
      rw [hn, List.drop_succ_cons]
      exact List.drop_suffix _ _
    · rw [resume_zero_of_two_le (by simp)]
      simp

/-- The only line of a body under which another one is expected is a false
start, and so the search does not find it. -/
private theorem two_le_of_longer {y : Text} {others : List Text}
    (hnew : r.header.body = (first :: more).map content ++ y :: others)
    (hne : y ≠ []) : 2 ≤ ((first :: more).map content).length := by
  by_contra hlt
  obtain rfl : more = [] := by
    rw [List.length_map, List.length_cons] at hlt
    exact List.eq_nil_of_length_eq_zero (by omega)
  refine hbegins ⟨?_, ?_, ?_, ?_, ?_⟩
  · rw [hnew]
    simp
  · intro o ho
    have hopening := h.opening
    rw [ho] at hopening
    obtain ⟨line, rfl, hline⟩ := List.map_eq_singleton_iff.1 hopening
    rw [List.getLast?_concat, Option.map_some, hline]
  · have hhead : r.header.body.head? = some (content first) := by
      rw [hnew]
      rfl
    rw [List.head?_eq_some_head r.header.body_ne_nil] at hhead
    exact (Option.some.inj hhead).symm
  · rw [hnew]
    simpa using Ne.symm hne
  · intro next hnext
    obtain rfl : ['\n'] = next := by simpa using hnext
    exact r.format.isContinuation_of_content_eq_nil rfl

/-- The expected body, a blank line below it, is a match. -/
theorem matched_of_eq (heq : (first :: more).map content = r.header.body) :
    (r.run .scanning t.closedLines).2 = .matched := by
  obtain ⟨hm, -, hfound⟩ := h.settled hbegins
  rw [matched_iff hm, hfound]
  refine ⟨[], (Text.lines rest ++ [[]]).map content, ?_, rfl⟩
  rw [← List.cons_append, List.map_append, List.map_append, h.opening, heq,
    Header.lines, List.append_assoc]
  rfl

/-- Behind an empty line of the body, a header that leaves the rest alone has
no line of a comment below it: that line would go, and the rest be shorter. -/
private theorem no_comment_of_after {others : List Text} (hne : others ≠ [])
    (hnew : r.header.body = (first :: more).map content ++ [] :: others)
    (hafter : (Settled.of (r.run .scanning t.closedLines).1).after.flatten
      = rest) {line : Text} (hline : (Text.lines rest).head? = some line) :
    r.format.isEnd line = false ∧ r.format.isContinuation line = false := by
  obtain ⟨below, hlines⟩ := List.head?_eq_some_iff.1 hline
  by_contra hgoes
  rw [not_and_or, Bool.not_eq_false, Bool.not_eq_false] at hgoes
  have hsuffix := h.after_suffix_of_spaced hbegins hne hnew hlines hgoes
  have hle := hsuffix.flatten.length_le
  have hmem : line ∈ Text.lines rest := by simp [hlines]
  have hpos := List.length_pos_iff.2 (Text.ne_nil_of_mem_lines hmem)
  have hflatten : (below ++ [([] : Text)]).flatten = below.flatten := by simp
  have hlen := congrArg List.length (Text.flatten_lines rest)
  rw [hlines, List.flatten_cons, List.length_append] at hlen
  rw [hafter, hflatten] at hle
  omega

/-- A header that leaves the rest below it and no more gives way. -/
private theorem givesWay_of_after
    (hends : ∀ line, (first :: more).getLast? = some line →
      r.format.isEnd line = true)
    (hlast : r.header.body.getLast r.header.body_ne_nil ≠ [])
    (hmatched : (r.run .scanning t.closedLines).2 ≠ .matched)
    (hafter : (Settled.of (r.run .scanning t.closedLines).1).after.flatten
      = rest) :
    GivesWay r.format rest ((first :: more).map content) r.header.body := by
  -- were the blank line left over, more than the rest would be
  have hleft : ¬ ∃ left : List Text, (Settled.of
        (r.run .scanning t.closedLines).1).after
      = left ++ ['\n'] :: (Text.lines rest ++ [[]]) := by
    rintro ⟨left, heq⟩
    rw [heq] at hafter
    have hlen := congrArg List.length hafter
    simp [Text.flatten_lines] at hlen
    omega
  have hlength : ((first :: more).map content).length
      = (first :: more).length :=
    List.length_map ..
  rcases prefix_or_differsAt ((first :: more).map content) r.header.body with
    ⟨tail, hnew⟩ | ⟨tail, hold⟩ | ⟨place, hdiffers⟩
  · -- the old body begins the new one
    cases tail with
    | nil =>
        rw [List.append_nil] at hnew
        exact absurd (h.matched_of_eq hbegins hnew) hmatched
    | cons y others =>
        by_cases hy : y = []
        · rw [hy] at hnew
          have hothers : others ≠ [] := by
            rintro rfl
            simp [← hnew] at hlast
          exact .spaced hnew.symm fun line hline =>
            h.no_comment_of_after hbegins hothers hnew.symm hafter hline
        · exact .longer (h.two_le_of_longer hbegins hnew.symm hy) hnew.symm hy
  · cases tail with
    | nil =>
        rw [List.append_nil] at hold
        exact absurd (h.matched_of_eq hbegins hold.symm) hmatched
    | cons line others =>
        exact absurd (h.after_of_overrun hbegins hmatched hold.symm) hleft
  · by_cases hlt : resume 0 place < (first :: more).length
    · exact absurd (h.after_of_cut hbegins hends hdiffers hlt) hleft
    · exact .of_differsAt hdiffers (hlength ▸ Nat.le_of_not_lt hlt)

-- ============================================================ updates

/-- An update puts the new block in the place of the old one exactly if the
old header gives way. -/
theorem correction?_eq_iff {p : Regions} (hp : r.parse t = .ok p)
    (hends : ∀ line, (first :: more).getLast? = some line →
      r.format.isEnd line = true)
    (hlast : r.header.body.getLast r.header.body_ne_nil ≠ [])
    (hbody : [] ∈ r.header.body →
      ∀ line ∈ r.header.body, r.format.isEnd line = true
        ∨ r.format.isContinuation line = true) :
    r.correction? p = some (front.flatten ++ r.header.block ++ rest)
      ↔ GivesWay r.format rest ((first :: more).map content)
        r.header.body := by
  obtain ⟨hm, hbefore, -⟩ := h.settled hbegins
  have hverdict := verdict_of_parse hp
  constructor
  · intro hcorrection
    cases hv : p.verdict with
    | current =>
        rw [correction?, hv] at hcorrection
        cases hcorrection
    | missing => exact absurd (hverdict ▸ hv) hm
    -- a stale header is cut where the search for its end stopped, so the rest
    -- is what is left after it
    | stale =>
        rw [correction?_of_stale hp hv, hbefore, Option.some_inj,
          List.append_cancel_left_eq] at hcorrection
        refine h.givesWay_of_after hbegins hends hlast ?_ hcorrection
        intro hmatched
        rw [hv, hmatched] at hverdict
        cases hverdict
  · intro hgives
    obtain ⟨hmatched, hafter⟩ := h.after_of_givesWay hbegins hlast hbody hgives
    rw [correction?_of_stale hp (stale_of_found hp hm hmatched),
      hbefore, hafter]

end

-- ======================================================== false starts

/-- A header that gives way is no false start. -/
theorem not_falseStart_of_givesWay
    (hcont : ∀ line, (first :: more).getLast? = some line →
      r.format.isContinuation line = true)
    (hgives : GivesWay r.format rest ((first :: more).map content)
      r.header.body) :
    ¬ r.FalseStart (front ++ top).getLast? first (more ++ [['\n']]).head? := by
  intro hstart
  have hfirst : r.header.body[0]? = some (content first) := by
    rw [← List.head?_eq_getElem?, List.head?_eq_some_head r.header.body_ne_nil,
      hstart.first]
  have hsecond := hstart.second
  cases hgives with
  -- the header differs in its first line, where a false start agrees
  | @only x y others hold hnew hne =>
      rw [hnew] at hfirst
      rw [List.map_cons] at hold
      refine hne ?_
      rw [← (List.cons.inj hold).1]
      exact (Option.some.inj hfirst).symm
  -- its second line is a comment, which is none in a false start
  | @second a x y others hold hnew hne =>
      rw [List.map_cons] at hold
      obtain ⟨line, rfl, -⟩ :=
        List.map_eq_singleton_iff.1 (List.cons.inj hold).2
      have hplain := hstart.plain line rfl
      rw [hcont line rfl] at hplain
      cases hplain
  -- and in these two it has the expected second line
  | @longer y others htwo hnew hne =>
      rw [hnew] at hsecond
      cases more with
      | nil => simp at htwo
      | cons line more => exact hsecond rfl
  | @spaced others hnew hrest =>
      rw [hnew] at hsecond
      cases more with
      | nil => exact hsecond rfl
      | cons line more => exact hsecond rfl

/-- Where a false start stands, a header that the search finds all the same
begins in the line below the opener at the earliest. -/
private theorem before_of_falseStart (h : r.Carries t [] top first more rest)
    {p : Regions} (hp : r.parse t = .ok p) (hm : p.verdict ≠ .missing)
    (hstart : r.FalseStart top.getLast? first (more ++ [['\n']]).head?) :
    (∃ line below, (more ++ [['\n']]).head? = some line
        ∧ p.before = top ++ [first] ++ line :: below)
      ∨ p.before = top ++ [first]
        ∧ ∃ line, (more ++ [['\n']]).head? = some line
          ∧ (r.format.isOpener line = true ∨ r.isMarker line = true) := by
  obtain ⟨line, others, hbelow⟩ : ∃ line others,
      more ++ ['\n'] :: (Text.lines rest ++ [[]]) = line :: others :=
    List.exists_cons_of_ne_nil (by simp)
  have hline : (more ++ [['\n']]).head? = some line := by
    have hhead := congrArg List.head? hbelow
    cases more with
    | nil => exact hhead
    | cons => exact hhead
  have hclosed : t.closedLines = (top ++ [first]) ++ line :: others := by
    rw [h.closedLines, hbelow]
    simp
  have hex : ∃ i, r.Begins t.closedLines i := by
    by_contra hno
    exact hm ((missing_iff_not_begins h.plain hp).2 (not_exists.1 hno))
  obtain ⟨i, hi, hleast⟩ := exists_first_begins hex
  have hbefore := (before_of_first_begins h.plain hp hi hleast).2
  have hle : (top ++ [first]).length ≤ i := by
    by_contra hlt
    rw [List.length_append, List.length_singleton] at hlt
    have hle := Nat.le_of_lt_succ (Nat.lt_of_not_le hlt)
    rcases Nat.lt_or_eq_of_le hle with hlt | rfl
    · -- the lines above are no openers
      obtain ⟨above, habove, hopen, -⟩ := hi
      rw [hclosed, List.append_assoc, List.getElem?_append_left hlt] at habove
      have hmem := List.mem_of_getElem? habove
      rw [h.isOpener_eq_false above (by simpa using hmem)] at hopen
      cases hopen
    · rw [hclosed, List.append_assoc] at hi
      rw [hline] at hstart
      exact (begins_append_iff.1 hi).2 hstart
  obtain ⟨j, rfl⟩ := Nat.exists_eq_add_of_le hle
  rw [hclosed] at hi hbefore
  cases j with
  | zero =>
      -- the line below the opener is one itself
      rw [Nat.add_zero] at hi hbefore
      have hmark := isMarker_of_isOpener h.plain h.opener
      rw [beginning, Text.lineAbove_append, List.getLast?_concat,
        Option.any_some, hmark, if_neg Bool.false_ne_true,
        List.take_left] at hbefore
      exact Or.inr ⟨hbefore, line, hline, Or.inl (begins_append_iff.1 hi).1⟩
  | succ j =>
      have habove : Text.lineAbove (top ++ [first] ++ line :: others)
          ((top ++ [first]).length + (j + 1)) = (line :: others)[j]? := by
        rw [← Nat.add_assoc, Text.lineAbove, List.getElem?_append_right
          (Nat.le_add_right _ _), Nat.add_sub_cancel_left]
      rw [beginning, habove] at hbefore
      by_cases hmark : ((line :: others)[j]?).any r.isMarker = true
      · rw [if_pos hmark, ← Nat.add_assoc, Nat.add_sub_cancel,
          List.take_length_add_append] at hbefore
        cases j with
        | zero =>
            -- the line below the opener is an opening line
            rw [List.take_zero, List.append_nil] at hbefore
            exact Or.inr ⟨hbefore, line, hline, Or.inr (by simpa using hmark)⟩
        | succ j => exact Or.inl ⟨line, others.take j, hline, hbefore⟩
      · rw [if_neg hmark, List.take_length_add_append] at hbefore
        exact Or.inl ⟨line, others.take j, hline, hbefore⟩

/-- Where no header is found, the whole text stays beside the block, and with
it the old one. -/
private theorem correction?_ne_of_missing
    (h : r.Carries t [] top first more rest) {p : Regions}
    (hp : r.parse t = .ok p) (hm : p.verdict = .missing) :
    r.correction? p ≠ some (r.header.block ++ rest) := by
  intro hcorrection
  obtain ⟨kept, behind, hlines, -, hwritten⟩ := correction?_of_missing hp hm
  rw [hcorrection, Option.some_inj] at hwritten
  have hkept : kept.flatten.length
      ≤ (kept.map Text.terminated).flatten.length := by
    rcases Text.flatten_map_terminated hlines with ⟨-, heq⟩ | ⟨-, heq, -⟩
    · rw [heq]
    · rw [heq, List.length_append]
      exact Nat.le_add_right _ _
  have hparts : kept.flatten ++ behind.flatten
      = (top ++ first :: more).flatten ++ '\n' :: rest := by
    rw [← List.flatten_append, ← hlines, h.lines]
    simp [Text.flatten_lines]
  have hcount := congrArg List.length hparts
  have hlen := congrArg List.length hwritten
  simp only [List.length_append, List.length_cons] at hcount hlen
  omega

/-- Where a false start stands, no update puts the new block in the place of
the old one: the line below the opener is in the way. -/
theorem correction?_ne_of_falseStart (h : r.Carries t [] top first more rest)
    {p : Regions} (hp : r.parse t = .ok p)
    (hstart : r.FalseStart top.getLast? first (more ++ [['\n']]).head?)
    (hbare : ∀ line ∈ r.header.lines, line.IsBare)
    (hbelow : ∀ line, (more ++ [['\n']]).head? = some line →
      r.format.isOpener line = true ∨ r.isMarker line = true →
        r.header.body[1]? ≠ r.header.lines.head?) :
    r.correction? p ≠ some (r.header.block ++ rest) := by
  intro hcorrection
  cases hv : p.verdict with
  | current =>
      rw [correction?, hv] at hcorrection
      cases hcorrection
  | missing => exact h.correction?_ne_of_missing hp hv hcorrection
  | stale =>
      have hm : p.verdict ≠ .missing := by simp [hv]
      have hcomplete := isComplete_of_mem_kept hp
      rw [kept, if_neg hm] at hcomplete
      rw [correction?, hv, Option.some_inj, List.append_assoc] at hcorrection
      have hlines := congrArg Text.lines hcorrection
      rw [Text.lines_flatten_append hcomplete, Header.lines_block_append hbare,
        Header.lines_block_append hbare] at hlines
      -- the second line of the notice comes below as many lines as the opener
      obtain ⟨b₀, below, hbody⟩ :=
        List.exists_cons_of_ne_nil r.header.body_ne_nil
      have hdue := hstart.due
      rw [hbody, List.length_cons] at hdue
      obtain ⟨b₁, others, rfl⟩ :=
        List.exists_cons_of_length_pos (by omega : 0 < below.length)
      have hbare₁ : b₁.IsBare := hbare b₁ (by simp [Header.lines, hbody])
      have hblock : r.header.blockLines ++ Text.lines rest
          = (r.header.opening.toList ++ [b₀]).map (· ++ ['\n'])
            ++ (b₁ ++ ['\n']) :: (others.map (· ++ ['\n']) ++ ['\n']
            :: Text.lines rest) := by
        rw [Header.blockLines, Header.lines, hbody]
        simp
      have hlen : (top ++ [first]).length
          = ((r.header.opening.toList ++ [b₀]).map (· ++ ['\n'])).length := by
        rw [← h.opening]
        simp
      rcases h.before_of_falseStart hp hm hstart with
        ⟨line, more', hline, hbefore⟩ | ⟨hbefore, line, hline, hgoes⟩
      · -- that line of the text is none of the notice
        rw [hbefore, List.append_assoc] at hlines
        have hrest := (List.append_inj (hlines.trans hblock) hlen).2
        refine hstart.second ?_
        rw [hline, hbody, (List.cons.inj hrest).1, Option.map_some,
          Text.content_append_lf, hbare₁.2]
        rfl
      · -- the first line of the block stands there
        refine hbelow line hline hgoes ?_
        obtain ⟨l, below, hl⟩ : ∃ l below, r.header.lines = l :: below :=
          List.exists_cons_of_ne_nil (by simp [Header.lines, hbody])
        have hfirst : r.header.blockLines ++ Text.lines p.after.flatten
            = (l ++ ['\n']) :: (below.map (· ++ ['\n'])
              ++ ['\n'] :: Text.lines p.after.flatten) := by
          rw [Header.blockLines, hl]
          simp
        rw [hbefore, hfirst] at hlines
        have hrest := (List.append_inj (hlines.trans hblock) hlen).2
        rw [hl, hbody, List.append_cancel_right (List.cons.inj hrest).1]
        rfl

end Recognizer.Carries

end CopyrightNotice
