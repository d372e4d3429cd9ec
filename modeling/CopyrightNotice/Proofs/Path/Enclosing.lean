/-
The directories that hold a path.

A path's parent has the steps of the path but for the last one, and is
spelled as the path is (`parent?_cases`). So each front part of the steps is
spelled by one of the directories that are asked about a path
(`exists_enclosing`), and no two of them are spellings of one directory
(`pairwise_enclosing`).
-/
import CopyrightNotice.Proofs.Path.Steps
import CopyrightNotice.Selection.OptOut
import Mathlib.Data.List.DropRight

namespace CopyrightNotice.Path

-- ============================================================ void ends

/-- What is dropped at the end passes no filter that keeps the rest. -/
theorem filter_dropEndWhile {α : Type} (p : α → Bool) (l : List α) :
    (Text.dropEndWhile p l).filter (!p ·) = l.filter (!p ·) := by
  have hend : (l.rtakeWhile p).filter (!p ·) = [] :=
    List.filter_eq_nil_iff.2 fun a ha => by simp [List.mem_rtakeWhile_imp ha]
  calc (Text.dropEndWhile p l).filter (!p ·)
      = (l.rdropWhile p ++ l.rtakeWhile p).filter (!p ·) := by
        rw [List.filter_append, hend, List.append_nil]
        rfl
    _ = l.filter (!p ·) := by rw [List.rdropWhile_append_rtakeWhile]

/-- All is dropped if and only if nothing passes that filter. -/
theorem dropEndWhile_eq_nil_iff {α : Type} (p : α → Bool) (l : List α) :
    Text.dropEndWhile p l = [] ↔ l.filter (!p ·) = [] := by
  refine List.rdropWhile_eq_nil_iff.trans ?_
  simp

/-- What is in front of the last step, without the spelling at its end. -/
def above (body : List Bytes) : List Bytes :=
  Text.dropEndWhile isVoid (Text.dropEndWhile isVoid body).dropLast

theorem above_isPrefix (body : List Bytes) : above body <+: body :=
  (Text.dropEndWhile_isPrefix _ _).trans
    ((List.dropLast_prefix _).trans (Text.dropEndWhile_isPrefix _ _))

/-- Among the parts that count, those above are all but the last. -/
theorem filter_above (body : List Bytes) :
    (above body).filter (!isVoid ·) = (body.filter (!isVoid ·)).dropLast := by
  rw [above, filter_dropEndWhile, ← filter_dropEndWhile isVoid body]
  by_cases hnil : Text.dropEndWhile isVoid body = []
  · rw [hnil]
    rfl
  · have hlast := Text.not_of_getLast_dropEndWhile hnil
    conv_rhs => rw [← List.dropLast_append_getLast hnil]
    simp [List.filter_append, hlast]

/-- Above a last part that counts stand the parts before it. -/
theorem above_concat (body : List Bytes) {part : Bytes}
    (h : isVoid part = false) :
    above (body ++ [part]) = Text.dropEndWhile isVoid body := by
  have hkept : Text.dropEndWhile isVoid (body ++ [part]) = body ++ [part] :=
    List.rdropWhile_concat_neg _ _ _ (by simp [h])
  rw [above, hkept, List.dropLast_concat]

/-- The spelling of parts in a row is the spelling of each, with a slash
between. -/
private theorem unsplit_append {front back : List Bytes} (hfront : front ≠ [])
    (hback : back ≠ []) :
    unsplit (front ++ back) = unsplit front ++ slash :: unsplit back := by
  obtain ⟨next, more, rfl⟩ := List.exists_cons_of_ne_nil hback
  induction front with
  | nil => exact absurd rfl hfront
  | cons part front ih =>
      cases front with
      | nil => simp [unsplit, List.intercalate]
      | cons second front =>
          rw [List.cons_append, List.cons_append, unsplit_cons_cons,
            unsplit_cons_cons, ← List.cons_append, ih (by simp),
            List.append_assoc, List.cons_append]

/-- The first parts are spelled first. -/
theorem unsplit_prefix {front parts : List Bytes} (h : front <+: parts) :
    unsplit front <+: unsplit parts := by
  obtain ⟨back, rfl⟩ := h
  by_cases hfront : front = []
  · rw [hfront]
    exact List.nil_prefix
  · by_cases hback : back = []
    · simp [hback]
    · rw [unsplit_append hfront hback]
      exact List.prefix_append ..

-- ============================================================== parents

theorem above_eq_nil_of {body : List Bytes}
    (h : Text.dropEndWhile isVoid body = []) : above body = [] := by
  rw [above, h]
  rfl

/-- The parent of an absolute path ends before its last name. -/
theorem parent?_of_absolute (rest : Bytes) :
    parent? ⟨slash :: rest⟩ = if (split rest).filter (!isVoid ·) = [] then none
      else some ⟨slash :: unsplit (above (split rest))⟩ := by
  have habs : isAbsolute ⟨slash :: rest⟩ = true := rfl
  have hdot : leadsWithDot ⟨slash :: rest⟩ = false := by simp [leadsWithDot,
    split]
  have hbody : (split (slash :: rest)).drop 1 = split rest := by simp [split]
  simp only [parent?, habs, hdot, hbody, if_true, Bool.false_eq_true, if_false,
    ← dropEndWhile_eq_nil_iff]
  rw [← above]
  split
  · rename_i hnil
    rw [hnil]
    rfl
  · rename_i hne
    rw [if_neg fun h => hne (above_eq_nil_of h)]
    rfl

/-- The parent of a relative path ends before its last name. -/
theorem parent?_of_plain {p : Path} (habs : p.isAbsolute = false)
    (hdot : p.leadsWithDot = false) :
    p.parent?
      = if p.steps = [] then none else some ⟨unsplit
        (above (split p.bytes))⟩ := by
  simp only [parent?, habs, hdot, Bool.false_eq_true, if_false, steps,
    ← dropEndWhile_eq_nil_iff]
  rw [← above]
  split
  · rename_i hnil
    rw [hnil]
    rfl
  · rename_i hne
    rw [if_neg fun h => hne (above_eq_nil_of h)]
    rfl

/-- A path that starts with a dot has parents down to the dot, and above it the
empty path. -/
theorem parent?_of_dot {p : Path} {body : List Bytes}
    (hsplit : split p.bytes = [dot] :: body) :
    p.parent?
      = some (if body.filter (!isVoid ·) = [] then ⟨[]⟩ else ⟨unsplit
        ([dot] :: above body)⟩) := by
  have habs : p.isAbsolute = false := by
    obtain ⟨bytes⟩ := p
    cases bytes with
    | nil => rfl
    | cons b rest =>
        by_cases hb : b = slash
        · simp [split, hb] at hsplit
        · simpa [isAbsolute] using hb
  have hdot : p.leadsWithDot = true := by simp [leadsWithDot, hsplit]
  simp only [parent?, habs, hdot, hsplit, Bool.false_eq_true, if_false,
    if_true, ← dropEndWhile_eq_nil_iff, List.drop_one, List.tail_cons]
  rw [← above]
  split
  · rename_i hnil
    rw [hnil]
    split <;> rfl
  · rename_i hne
    rw [if_neg fun h => hne (above_eq_nil_of h)]
    obtain ⟨part, more, hparts⟩ := List.exists_cons_of_ne_nil hne
    rw [hparts, unsplit_cons_cons]

/-- The steps of a path that is put together from parts. -/
theorem steps_unsplit {parts : List Bytes} (h : ∀ part ∈ parts, slash ∉ part) :
    steps ⟨unsplit parts⟩ = parts.filter (!isVoid ·) := by
  by_cases hnil : parts = []
  · rw [hnil]
    rfl
  · rw [steps, split_unsplit hnil h]

theorem steps_slash (rest : Bytes) :
    steps ⟨slash :: rest⟩ = (split rest).filter (!isVoid ·) := by
  simp [steps, split, isVoid]

theorem leadsWithDot_unsplit {parts : List Bytes} (hne : parts ≠ [])
    (h : ∀ part ∈ parts, slash ∉ part) :
    leadsWithDot ⟨unsplit parts⟩ = (parts.head? == some [dot]) := by
  rw [leadsWithDot, split_unsplit hne h]

/-- What the parent of a path can be: nothing, if the path is a dot, and else
what the path spells in front of its last step. -/
theorem parent?_cases {p q : Path} (h : p.parent? = some q) :
    (p.steps = [] ∧ p.lead = [.here] ∧ q = ⟨[]⟩)
      ∨ (p.steps ≠ []
        ∧ q.bytes <+: p.bytes
        ∧ q.steps = p.steps.dropLast
        ∧ q.lead = p.lead) := by
  have hslash : ∀ part ∈ split p.bytes, slash ∉ part :=
    fun _ => slash_not_mem_of_mem_split
  by_cases habs : p.isAbsolute = true
  · obtain ⟨bytes⟩ := p
    obtain ⟨rest, rfl⟩ : ∃ rest, bytes = slash :: rest := by
      cases bytes <;> simp_all [isAbsolute]
    have hrest : ∀ part ∈ above (split rest), slash ∉ part := fun part hpart =>
      slash_not_mem_of_mem_split ((above_isPrefix _).subset hpart)
    rw [parent?_of_absolute] at h
    split at h
    · cases h
    · rename_i hne
      cases h
      refine Or.inr ⟨by rwa [steps_slash], ?_, ?_, rfl⟩
      · have hstarts := unsplit_prefix (above_isPrefix (split rest))
        rw [unsplit_split] at hstarts
        exact List.cons_prefix_cons.2 ⟨rfl, hstarts⟩
      · rw [steps_slash, steps_slash, ← filter_above, ← steps_unsplit hrest]
        rfl
  · have hrel : p.isAbsolute = false := by simpa using habs
    -- a front part of a relative path is relative
    have relative {front : Bytes} (hfront : front <+: p.bytes) :
        isAbsolute ⟨front⟩ = false := by
      obtain ⟨back, hback⟩ := hfront
      cases front with
      | nil => rfl
      | cons b front => simpa [isAbsolute, ← hback] using hrel
    have fits {parts : List Bytes} (hparts : parts <+: split p.bytes) :
        unsplit parts <+: p.bytes :=
        unsplit_split p.bytes ▸ unsplit_prefix hparts
    by_cases hdot : p.leadsWithDot = true
    · obtain ⟨body, hsplit⟩ : ∃ body, split p.bytes = [dot] :: body := by
        unfold leadsWithDot at hdot
        cases hs : split p.bytes <;> simp_all
      have hsteps : p.steps = body.filter (!isVoid ·) := by simp [steps,
        hsplit, isVoid]
      rw [parent?_of_dot hsplit, ← hsteps, Option.some.injEq] at h
      split at h
      · rename_i hnil
        exact Or.inl ⟨hnil, by simp [lead, hrel, hdot], h.symm⟩
      · rename_i hne
        subst h
        have hparts : [dot] :: above body <+: split p.bytes :=
          hsplit ▸ List.cons_prefix_cons.2 ⟨rfl, above_isPrefix body⟩
        have hslash' := fun part hpart => hslash part (hparts.subset hpart)
        refine Or.inr ⟨hne, fits hparts, ?_, ?_⟩
        · rw [steps_unsplit hslash', hsteps, ← filter_above]
          simp [isVoid]
        · have hdot' : leadsWithDot ⟨unsplit ([dot] :: above body)⟩
              = true := by
            simp [leadsWithDot_unsplit (List.cons_ne_nil _ _) hslash']
          simp [lead, hrel, relative (fits hparts), hdot, hdot']
    · have hplain : p.leadsWithDot = false := by simpa using hdot
      rw [parent?_of_plain hrel hplain] at h
      split at h
      · cases h
      · rename_i hne
        cases h
        have hparts := above_isPrefix (split p.bytes)
        have hslash' := fun part hpart => hslash part (hparts.subset hpart)
        refine Or.inr ⟨hne, fits hparts, ?_, ?_⟩
        · rw [steps_unsplit hslash', filter_above]
          rfl
        · have hdot' : leadsWithDot ⟨unsplit (above (split p.bytes))⟩
              = false := by
            by_cases hnil : above (split p.bytes) = []
            · rw [hnil]
              decide
            · obtain ⟨back, hback⟩ := hparts
              rw [leadsWithDot, ← hback,
                List.head?_append_of_ne_nil _ hnil] at hplain
              rw [leadsWithDot_unsplit hnil hslash']
              exact hplain
          simp [lead, hrel, relative (fits hparts), hplain, hdot']

/-- The parent of a path is spelled as the path is, and has its steps but for
the last one. -/
theorem parent?_spec {p q : Path} (h : p.parent? = some q) :
    q.bytes <+: p.bytes
      ∧ q.steps = p.steps.dropLast
      ∧ q.isAbsolute = p.isAbsolute := by
  rw [isAbsolute_eq_lead, isAbsolute_eq_lead]
  rcases parent?_cases h with ⟨hsteps, hlead, rfl⟩ | ⟨-, hstarts,
    hsteps, hlead⟩
  · rw [hsteps, hlead]
    exact ⟨List.nil_prefix, rfl, rfl⟩
  · exact ⟨hstarts, hsteps, by rw [hlead]⟩

/-- A parent has all components but the last one. -/
private theorem parent?_components {p q : Path} (h : p.parent? = some q) :
    p.components ≠ [] ∧ q.components = p.components.dropLast := by
  rw [components_eq, components_eq]
  rcases parent?_cases h with ⟨hsteps, hlead, rfl⟩ | ⟨hne, -, hsteps, hlead⟩
  · rw [hsteps, hlead]
    exact ⟨by simp, rfl⟩
  · have hmap : p.steps.map ofStep ≠ [] := by simpa using hne
    rw [hlead, hsteps, List.map_dropLast, List.dropLast_append_of_ne_nil hmap]
    exact ⟨by simp [hne], rfl⟩

/-- A path with a step has a parent. -/
private theorem parent?_isSome {p : Path} (h : p.steps ≠ []) :
    p.parent?.isSome = true := by
  by_cases habs : p.isAbsolute = true
  · obtain ⟨bytes⟩ := p
    obtain ⟨rest, rfl⟩ : ∃ rest, bytes = slash :: rest := by
      cases bytes <;> simp_all [isAbsolute]
    rw [steps_slash] at h
    simp [parent?_of_absolute, h]
  · by_cases hdot : p.leadsWithDot = true
    · obtain ⟨body, hsplit⟩ : ∃ body, split p.bytes = [dot] :: body := by
        unfold leadsWithDot at hdot
        cases hs : split p.bytes <;> simp_all
      simp [parent?_of_dot hsplit]
    · simp [parent?_of_plain (by simpa using habs) (by simpa using hdot), h]

-- ========================================================== enclosures

/-- A directory that encloses a path has fewer components. -/
private theorem length_components_of_mem_enclosingUpTo {k : Nat} {p dir : Path}
    (h : dir ∈ enclosingUpTo k p) :
    dir.components.length < p.components.length := by
  induction k generalizing p with
  | zero => cases h
  | succ k ih =>
      unfold enclosingUpTo at h
      split at h
      · cases h
      · rename_i q hq
        obtain ⟨hne, hdrop⟩ := parent?_components hq
        have hpos := List.length_pos_iff.2 hne
        have hq' : q.components.length < p.components.length := by
          rw [hdrop, List.length_dropLast]
          omega
        rcases List.mem_cons.1 h with rfl | h
        · exact hq'
        · exact (ih h).trans hq'

/-- The directories that enclose a path are told apart by their components. -/
private theorem pairwise_enclosingUpTo (k : Nat) (p : Path) :
    (enclosingUpTo k p).Pairwise (·.components ≠ ·.components) := by
  induction k generalizing p with
  | zero => exact .nil
  | succ k ih =>
      unfold enclosingUpTo
      split
      · exact .nil
      · rename_i q _
        refine .cons (fun dir hdir heq => ?_) (ih q)
        have hlt := length_components_of_mem_enclosingUpTo hdir
        rw [← heq] at hlt
        exact Nat.lt_irrefl _ hlt

/-- No two of the directories that hold a path are spellings of one. -/
theorem pairwise_enclosing (p : Path) :
    p.enclosing.Pairwise (·.components ≠ ·.components) :=
  pairwise_enclosingUpTo _ p

/-- A directory that encloses a path is spelled by its first bytes. -/
private theorem prefix_of_mem_enclosingUpTo {k : Nat} {p dir : Path}
    (h : dir ∈ enclosingUpTo k p) : dir.bytes <+: p.bytes := by
  induction k generalizing p with
  | zero => cases h
  | succ k ih =>
      unfold enclosingUpTo at h
      split at h
      · cases h
      · rename_i q hq
        have hstarts := (parent?_spec hq).1
        rcases List.mem_cons.1 h with rfl | h
        · exact hstarts
        · exact (ih h).trans hstarts

/-- A directory that holds a path is spelled by a front part of the path. -/
theorem prefix_of_mem_enclosing {p dir : Path} (h : dir ∈ p.enclosing) :
    dir.bytes <+: p.bytes := prefix_of_mem_enclosingUpTo h

/-- Every run of first steps, but not all of them, is one of the directories
that enclose the path. -/
private theorem exists_enclosingUpTo {k : Nat} {p : Path} {front : List Bytes}
    (hk : p.bytes.length ≤ k) (hfront : front <+: p.steps)
    (hne : front ≠ p.steps) :
    ∃ dir ∈ enclosingUpTo k p, dir.steps = front
      ∧ dir.isAbsolute = p.isAbsolute := by
  induction k generalizing p with
  | zero =>
      obtain ⟨bytes⟩ := p
      obtain rfl := List.eq_nil_of_length_eq_zero (Nat.le_zero.1 hk)
      exact absurd (List.prefix_nil.1 hfront) hne
  | succ k ih =>
      have hsteps : p.steps ≠ [] := by
        intro hnil
        rw [hnil] at hfront hne
        exact hne (List.prefix_nil.1 hfront)
      obtain ⟨q, hq⟩ := Option.isSome_iff_exists.1 (parent?_isSome hsteps)
      obtain ⟨hstarts, hdrop, habs⟩ := parent?_spec hq
      simp only [enclosingUpTo, hq]
      by_cases heq : front = q.steps
      · exact ⟨q, List.mem_cons_self .., heq.symm, habs⟩
      · -- the parent is shorter, or else it would be the path itself and have
        -- all its steps
        have hlt : q.bytes.length < p.bytes.length := by
          refine Nat.lt_of_le_of_ne hstarts.length_le fun hlen => ?_
          have hpq : q = p := congrArg Path.mk (hstarts.eq_of_length hlen)
          have hlen' := congrArg List.length (hpq ▸ hdrop)
          rw [List.length_dropLast] at hlen'
          have := List.length_pos_iff.2 hsteps
          omega
        have hfront' : front <+: q.steps := by
          obtain ⟨back, hback⟩ := hfront
          have hback' : back ≠ [] := by
            rintro rfl
            exact hne (by simpa using hback)
          rw [hdrop, ← hback, List.dropLast_append_of_ne_nil hback']
          exact List.prefix_append ..
        obtain ⟨dir, hmem, hdir, habs'⟩ := ih (by omega) hfront' heq
        exact ⟨dir, List.mem_cons_of_mem _ hmem, hdir, habs'.trans habs⟩

/-- Each front part of the steps of a path is spelled by a directory that holds
the path. -/
theorem exists_enclosing {p : Path} {front : List Bytes}
    (hfront : front <+: p.steps) (hne : front ≠ p.steps) :
    ∃ dir ∈ p.enclosing, dir.steps = front ∧ dir.isAbsolute = p.isAbsolute :=
  exists_enclosingUpTo (Nat.le_refl _) hfront hne

end CopyrightNotice.Path
