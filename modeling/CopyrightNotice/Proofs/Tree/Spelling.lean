/-
What a walk makes of the spelling of a path.

Repeated slashes and dots are passed without a step, as long as something
comes behind them: the walk has to be in a directory for either
(`walk_append_filter`). So for whoever takes a path from a directory it
does not matter how the directory is spelled (`leadsTo_join_congr`), but
for two things. The dots and slashes count towards the length of the whole,
which is limited. And the empty path, which leads nowhere, has no other
spelling.
-/
import CopyrightNotice.Proofs.Path.Steps

namespace CopyrightNotice

namespace Path

variable {p p' : Path}

/-- Two spellings of one path: nothing is different but dots and slashes. -/
structure Respelled (p p' : Path) : Prop where
  steps : p.steps = p'.steps
  absolute : p.isAbsolute = p'.isAbsolute
  empty : p.bytes = [] ↔ p'.bytes = []

theorem respelled_of_components (h : p.components = p'.components) :
    p.Respelled p' where
  steps := by rw [steps_eq_filterMap, steps_eq_filterMap, h]
  absolute := by
    rw [Bool.eq_iff_iff, isAbsolute_iff_root_mem, isAbsolute_iff_root_mem, h]
  empty := by rw [← components_eq_nil_iff, ← components_eq_nil_iff, h]

/-- A path may be spelled otherwise where it is taken from another one. -/
theorem Respelled.join (h : p.Respelled p') (root : Path) :
    (root.join p).Respelled (root.join p') := by
  by_cases habs : p.isAbsolute = true
  · rwa [join_of_absolute root habs, join_of_absolute root (h.absolute ▸ habs)]
  · have hrel : p.isAbsolute = false := by simpa using habs
    have hrel' : p'.isAbsolute = false := h.absolute ▸ hrel
    exact {
      steps := by rw [steps_join hrel, steps_join hrel', h.steps]
      absolute := by rw [isAbsolute_join hrel, isAbsolute_join hrel']
      empty := by rw [join_eq_nil_iff, join_eq_nil_iff, h.empty] }

end Path

namespace Tree

variable {t : Tree} {links : Nat} {l : Location} {back todo : List Bytes}
  {p p' q : Path}

-- ================================================================ walks

theorem walk_of_not_isDirectory (goal : Goal) (h : t.isDirectory l = false)
    (hne : todo ≠ []) : t.walk goal links l todo = .error .notDirectory := by
  obtain ⟨part, rest, rfl⟩ := List.exists_cons_of_ne_nil hne
  rw [walk, if_pos (by simp [h])]

/-- In front of something else, dots and empty parts do nothing. -/
theorem walk_append_filter (hback : back ≠ []) (links : Nat) (l : Location)
    (front : List Bytes) : t.walk .target links l (front ++ back)
      = t.walk .target links l (front.filter (!Path.isVoid ·) ++ back) := by
  -- the outer induction is for the links, whose own parts come in front
  induction links using Nat.strongRecOn generalizing l front with
  | ind links ihlinks =>
  induction front generalizing l with
  | nil => rfl
  | cons part front ih =>
      by_cases hdir : t.isDirectory l = true
      · cases hvoid : Path.isVoid part with
        | true =>
            rw [List.cons_append, walk, if_neg (by simp [hdir]),
              if_pos hvoid, ih, List.filter_cons_of_neg (by simp [hvoid])]
        | false =>
            rw [List.filter_cons_of_pos (by simp [hvoid]), List.cons_append,
              List.cons_append, walk, walk]
            simp only [hdir, hvoid, reduceCtorEq, false_and, if_false,
              Bool.not_true, Bool.false_eq_true]
            split
            · exact ih _
            · split
              · rfl
              · split
                · rfl
                · -- a link: what it leads along, then the rest
                  cases links with
                  | zero => rfl
                  | succ links =>
                      have along (target : Path) (more : List Bytes) :=
                        ihlinks links (Nat.lt_succ_self links)
                          (if target.isAbsolute then [] else l) (parts target
                          ++ more)
                      simp only [← List.append_assoc]
                      rw [along _ front,
                        along _ (front.filter (!Path.isVoid ·))]
                      simp only [List.filter_append, List.filter_filter,
                        Bool.and_self]
                · exact ih _
      · have hnot : t.isDirectory l = false := by simpa using hdir
        rw [walk_of_not_isDirectory _ hnot (by simp),
          walk_of_not_isDirectory _ hnot (by simp [hback])]

-- ================================================================ paths

/-- What a walk along a joined path takes behind the directory. -/
private theorem exists_parts_join {q : Path} (hq : q.isAbsolute = false) :
    ∃ back, back ≠ [] ∧ ∀ p : Path, (p.join q).bytes ≠ [] →
      parts (p.join q) = p.spelled ++ back := by
  by_cases hne : q.bytes = []
  · -- nothing is taken from the directory, and its path gets a slash
    refine ⟨[[]], by simp, fun p hp => ?_⟩
    have hlast : (p.join q).bytes.getLast? = some Path.slash := by
      rcases Path.join_of_relative hq with ⟨-, hjoin⟩ | ⟨front, -, hjoin⟩
        | ⟨-, hjoin⟩
      · exact absurd ((congrArg Path.bytes hjoin).trans hne) hp
      · simp [hjoin, hne]
      · simp [hjoin, hne]
    have hspelled : q.spelled = [] := by simp [Path.spelled, hne, Path.split]
    rw [parts_eq, if_pos hlast, Path.spelled_join hq, hspelled,
      List.append_nil]
  · exact ⟨parts q, parts_ne_nil hq hne, fun p _ => parts_join hq hne⟩

/-- A path that is taken from a directory leads to the same, however the
directory is spelled, unless one of the spellings is too long. -/
theorem leadsTo_join_congr (h : p.Respelled p')
    (hshort : (p.join q).bytes.length < pathLimit
      ↔ (p'.join q).bytes.length < pathLimit) :
    t.leadsTo (p.join q) = t.leadsTo (p'.join q) := by
  by_cases hq : q.isAbsolute = true
  · rw [Path.join_of_absolute p hq, Path.join_of_absolute p' hq]
  · have hrel : q.isAbsolute = false := by simpa using hq
    by_cases hp : p.bytes = []
    · have heq : p = p' := congrArg Path.mk (hp.trans (h.empty.1 hp).symm)
      rw [heq]
    · obtain ⟨back, hback, hparts⟩ := exists_parts_join hrel
      have hne : (p.join q).bytes ≠ [] :=
        fun hnil => hp (Path.join_eq_nil_iff.1 hnil).1
      have hne' : (p'.join q).bytes ≠ [] := fun hnil =>
        hp (h.empty.2 (Path.join_eq_nil_iff.1 hnil).1)
      -- a zero byte is in a path if and only if it is in a step of it
      have hnul : (p.join q).bytes.contains 0
          = (p'.join q).bytes.contains 0 := by
        rw [Bool.eq_iff_iff, List.contains_iff_mem, List.contains_iff_mem,
          Path.mem_steps (by decide) (by decide),
          Path.mem_steps (by decide) (by decide),
          Path.steps_join hrel, Path.steps_join hrel, h.steps]
      have hwalk (start : Location) :
          t.walk .target maxLinks start (parts (p.join q))
            = t.walk .target maxLinks start (parts (p'.join q)) := by
        rw [hparts p hne, hparts p' hne', walk_append_filter hback _ _
          p.spelled, walk_append_filter hback _ _ p'.spelled, filter_spelled,
          filter_spelled, h.steps]
      have hlocate : t.locate .target (p.join q)
          = t.locate .target (p'.join q) := by
        simp only [locate, hnul, if_neg hne, if_neg hne', ← Nat.not_lt, hshort,
          Path.isAbsolute_join hrel, h.absolute, hwalk]
      rw [leadsTo, leadsTo, hlocate]

end Tree

end CopyrightNotice
