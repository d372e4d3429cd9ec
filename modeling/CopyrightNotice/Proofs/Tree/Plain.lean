/-
Walks that meet no link, `Arrives t .target 0`.

Such a walk depends on the steps of its path alone, and can be put together
from others. If it ends below a directory that it began above, it came
through the directory (`Arrives.passes`): each step goes down to an entry or
up from one.

In a tree where no link leads to a directory, all walks to directories and
to the entries in them are such walks (`Arrives.direct`).
-/
import CopyrightNotice.Proofs.Tree.Route
import Mathlib.Data.List.Induction

namespace CopyrightNotice.Tree

variable {t : Tree} {goal : Goal} {links : Nat} {l d m e : Location}
  {front back todo : List Bytes}

-- ====================================================== spelling and parts

theorem Arrives.append (h : Arrives t .target 0 l front m)
    (hback : Arrives t .target links m back e) :
    Arrives t .target links l (front ++ back) e := by
  generalize hk : 0 = k at h
  induction h with
  | done => exact hback
  | stay dir hvoid _ ih => exact .stay dir hvoid (ih hback hk)
  | up dir _ ih => exact .up dir (ih hback hk)
  | free _ _ hgoal | link _ _ hgoal => cases hgoal
  | follow => cases hk
  | enter dir name _ found solid _ ih =>
      exact .enter dir name (by simp) found solid (ih hback hk)

theorem Arrives.steps (h : Arrives t .target 0 l todo e) :
    Arrives t .target 0 l (todo.filter (!Path.isVoid ·)) e := by
  generalize hk : 0 = k at h
  induction h with
  | done => exact hk ▸ .done
  | stay _ hvoid _ ih =>
      rw [List.filter_cons_of_neg (by simp [hvoid])]
      exact ih hk
  | up dir _ ih =>
      rw [List.filter_cons_of_pos (by decide)]
      exact .up dir (ih hk)
  | free _ _ hgoal | link _ _ hgoal => cases hgoal
  | follow => cases hk
  | enter dir name _ found solid _ ih =>
      rw [List.filter_cons_of_pos (by simp [name.notVoid])]
      exact .enter dir name (by simp) found solid (ih hk)

/-- A walk to a directory may be spelled in any way. -/
theorem Arrives.of_steps
    (h : Arrives t .target 0 l (todo.filter (!Path.isVoid ·)) e)
    (hdir : t.isDirectory e = true) : Arrives t .target 0 l todo e := by
  induction todo generalizing l with
  | nil => exact h
  | cons part todo ih =>
      by_cases hvoid : Path.isVoid part = true
      · rw [List.filter_cons_of_neg (by simp [hvoid])] at h
        refine .stay ?_ hvoid (ih h)
        by_cases hnil : todo.filter (!Path.isVoid ·) = []
        · rw [hnil] at h
          cases h
          exact hdir
        · exact h.isDirectory hnil
      · rw [List.filter_cons_of_pos (by simpa using hvoid)] at h
        generalize hrest : todo.filter (!Path.isVoid ·) = rest at h
        cases h with
        | stay _ h => exact absurd h hvoid
        | up dir more => exact .up dir (ih (hrest ▸ more))
        | free _ _ hgoal | link _ _ hgoal => cases hgoal
        | enter dir name _ found solid more =>
            exact .enter dir name (by simp) found solid (ih (hrest ▸ more))

-- ============================================================ in between

/-- A walk from above a directory to something below it comes through the
directory. -/
theorem Arrives.passes (h : Arrives t .target 0 l todo e)
    (hvoid : ∀ part ∈ todo, Path.isVoid part = false) (hl : l <+: d)
    (hd : d <+: e) (hne : d ≠ e) :
    ∃ front,
      front <+: todo ∧ front ≠ todo ∧ Arrives t .target 0 l front d := by
  induction todo using List.reverseRecOn generalizing e with
  | nil =>
      cases h
      exact absurd (hd.eq_of_length_le hl.length_le) hne
  | append_singleton todo part ih =>
      obtain ⟨k, m, hk, hfront, hlast⟩ := h.split (by simp)
      obtain rfl : k = 0 := Nat.le_zero.1 hk
      have hfronts : ∀ part ∈ todo, Path.isVoid part = false :=
        fun part hpart =>
        hvoid part (List.mem_append_left _ hpart)
      -- it is enough that the walk is below the directory before its last step
      have before (hdm : d <+: m) (hmd : d ≠ m) :
          ∃ front, front <+: todo ++ [part] ∧ front ≠ todo ++ [part]
            ∧ Arrives t .target 0 l front d := by
        obtain ⟨front, hstarts, -, harrives⟩ := ih hfront hfronts hdm hmd
        refine ⟨front, hstarts.trans (List.prefix_append ..), ?_, harrives⟩
        rintro rfl
        have hlen := hstarts.length_le
        rw [List.length_append, List.length_singleton] at hlen
        omega
      cases hlast with
      | stay _ h => simp [hvoid part (by simp)] at h
      | up dir more =>
          cases more
          refine before (hd.trans (List.dropLast_prefix m)) ?_
          rintro rfl
          exact hne (hd.eq_of_length_le (List.dropLast_prefix d).length_le)
      | free _ _ hgoal | link _ _ hgoal => cases hgoal
      | enter dir name _ found solid more =>
          cases more
          have hdm : d <+: m := by
            rcases List.prefix_concat_iff.1 hd with heq | hdm
            · exact absurd heq hne
            · exact hdm
          by_cases hmd : d = m
          · subst hmd
            exact ⟨todo, List.prefix_append .., by simp, hfront⟩
          · exact before hdm hmd

-- ====================================================== no directory links

/-- No link leads to a directory. -/
def NoDirectoryLinks (t : Tree) : Prop :=
  ∀ l name target e, t.entry? (l ++ [name]) = some (.link target) →
    t.walk .target maxLinks l [name] = .ok e → t.isDirectory e = false

theorem noDirectoryLinks_of_entries
    (h : ∀ pair ∈ t.entries, ∀ target, pair.2 ≠ .link target) :
    t.NoDirectoryLinks := by
  intro l name target e hlink
  rcases mem_entries hlink with ⟨hnil, -⟩ | hmem
  · simp at hnil
  · exact absurd rfl (h _ hmem target)

/-- Where no link leads to a directory, walks meet no links on their way. -/
theorem Arrives.direct (h : Arrives t goal links l todo e)
    (ht : t.NoDirectoryLinks) (hlinks : links ≤ maxLinks)
    (hsolid : ∀ target, t.entry? e ≠ some (.link target))
    (hgoal : goal = .itself ∨ goal = .target ∧ t.isDirectory e = true) :
    Arrives t .target 0 l todo e := by
  induction h with
  | done => exact .done
  | stay dir hvoid _ ih => exact .stay dir hvoid (ih hlinks hsolid hgoal)
  | up dir _ ih => exact .up dir (ih hlinks hsolid hgoal)
  | free _ _ hplace => simp [hplace] at hgoal
  | link _ _ _ entry => exact absurd entry (hsolid _)
  | @follow links l part rest target e dir name _ hitself entry more _ =>
      -- the link leads to what the walk goes on from, and that is a directory
      obtain ⟨m, harrives, hm⟩ : ∃ m, Arrives t .target links
          (if target.isAbsolute then [] else l) (parts target) m
          ∧ t.isDirectory m = true := by
        by_cases hrest : rest = []
        · subst hrest
          rcases hgoal with hgoal | ⟨rfl, hdir⟩
          · exact absurd ⟨hgoal, rfl⟩ hitself
          · exact ⟨e, by simpa using more, hdir⟩
        · obtain ⟨k, m, -, htarget, hgoes⟩ := more.split hrest
          exact ⟨m, htarget, hgoes.isDirectory hrest⟩
      have hlink : Arrives t .target (links + 1) l [part] m :=
        .follow dir name (by simp) (by simp) entry (by simpa using harrives)
      have hno := ht l part target m entry (hlink.mono hlinks).walk_eq
      rw [hm] at hno
      cases hno
  | enter dir name _ found solid _ ih =>
      exact .enter dir name (by simp) found solid (ih hlinks hsolid hgoal)

end CopyrightNotice.Tree
