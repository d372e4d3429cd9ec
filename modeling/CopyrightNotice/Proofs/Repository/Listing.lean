/-
A listing of tracked files is strictly increasing.

The order of paths is the lexicographic order of their components, and
that of components goes by kind and then by bytes; both are total, and
only spellings of one list of components are level (`Path.compare_eq_iff`).
Sorting thus brings equal paths together, and dropping what equals its
neighbour leaves each only once (`listing_pairwise`).
-/
import CopyrightNotice.Repository.Staged
import Mathlib.Data.List.Basic

namespace CopyrightNotice

open Std (TransCmp LawfulEqCmp ReflCmp)

-- =============================================================== order

section Lists

variable {α : Type} (cmp : α → α → Ordering)

/-- Lists are compared by the first members that differ. -/
theorem compareLists_eq : compareLists cmp = List.compareLex cmp := by
  funext as bs
  induction as generalizing bs with
  | nil => cases bs <;> rfl
  | cons a as ih =>
      cases bs with
      | nil => rfl
      | cons b bs =>
          rw [compareLists, ih]
          exact List.compareLex_cons_cons.symm

instance [TransCmp cmp] : TransCmp (compareLists cmp) := by
  rw [compareLists_eq]
  infer_instance

instance [LawfulEqCmp cmp] : LawfulEqCmp (compareLists cmp) := by
  rw [compareLists_eq]
  infer_instance

end Lists

namespace Component

/-- The bytes of a name; the other components are told apart by their
kind. -/
def spelled : Component → Bytes
  | .name n => n
  | .root | .here | .up => []

/-- Components are compared by their kind, then by their spelling. -/
theorem compare_eq (c d : Component) :
    c.compare d
      = (Ord.compare c.rank d.rank).then
        (compareBytes c.spelled d.spelled) := by
  cases c <;> cases d <;> rfl

instance : TransCmp compareBytes := inferInstanceAs (TransCmp (compareLists _))

instance : LawfulEqCmp compareBytes :=
  inferInstanceAs (LawfulEqCmp (compareLists _))

instance :
    TransCmp (fun c d : Component => compareBytes c.spelled d.spelled) where
  eq_swap := Std.OrientedCmp.eq_swap
  isLE_trans := TransCmp.isLE_trans

instance : TransCmp Component.compare := by
  have heq : Component.compare = compareLex (compareOn rank)
      (fun c d => compareBytes c.spelled d.spelled) :=
    funext fun c => funext fun d => compare_eq c d
  rw [heq]
  infer_instance

instance : LawfulEqCmp Component.compare where
  eq_of_compare {c d} h := by
    rw [compare_eq, Ordering.then_eq_eq] at h
    have hrank := LawfulEqCmp.eq_of_compare h.1
    have hbytes := LawfulEqCmp.eq_of_compare h.2
    cases c <;> cases d <;> simp_all [rank, spelled]

end Component

namespace Path

variable {p q r : Path}

/-- Paths compare as equal if and only if they are the same. -/
theorem compare_eq_iff : p.compare q = .eq ↔ p.sameAs q = true := by
  rw [sameAs, beq_iff_eq, compare]
  exact LawfulEqCmp.compare_eq_iff_eq

instance : TransCmp Path.compare where
  eq_swap := Std.OrientedCmp.eq_swap (α := List Component)
  isLE_trans := TransCmp.isLE_trans (α := List Component)

/-- The order of paths is transitive. -/
theorem precedes_trans (p q r : Path) (hpq : p.precedes q = true)
    (hqr : q.precedes r = true) : p.precedes r = true := by
  unfold precedes at hpq hqr ⊢
  exact TransCmp.isLE_trans hpq hqr

/-- The order of paths is total. -/
theorem precedes_total (p q : Path) :
    (p.precedes q || q.precedes p) = true := by
  have hswap : p.compare q = (q.compare p).swap := Std.OrientedCmp.eq_swap
  rw [precedes, precedes, hswap]
  cases q.compare p <;> rfl

/-- A path that precedes another, which is not the same, comes before it. -/
private theorem compare_eq_lt (hpq : p.precedes q = true)
    (hne : p.sameAs q = false) : p.compare q = .lt := by
  cases h : p.compare q with
  | lt => rfl
  | eq => simp [compare_eq_iff.1 h] at hne
  | gt => simp [precedes, h] at hpq

private theorem compare_lt_of_precedes (hpq : p.compare q = .lt)
    (hqr : q.precedes r = true) : p.compare r = .lt :=
  TransCmp.lt_of_lt_of_isLE hpq (by simpa [precedes] using hqr)

private theorem ne_of_compare_lt (h : p.compare q = .lt) : p ≠ q := by
  rintro rfl
  rw [compare_eq_iff.2 (by rw [sameAs, beq_self_eq_true])] at h
  cases h

end Path

-- ============================================================= listing

namespace Staged

/-- To drop repeats adds no path. -/
private theorem dropRepeats_subset (paths : List Path) :
    dropRepeats paths ⊆ paths := by
  fun_induction dropRepeats paths with
  | case1 | case2 => exact List.Subset.refl _
  | case3 p q rest hsame ih =>
      exact List.Subset.trans ih (List.cons_subset_cons _
        (List.subset_cons_self ..))
  | case4 p q rest hne ih => exact List.cons_subset_cons _ ih

/-- Without repeats, a sorted list is strictly increasing. -/
theorem dropRepeats_pairwise {paths : List Path}
    (h : paths.Pairwise fun p q => p.precedes q = true) :
    (dropRepeats paths).Pairwise fun p q => p.compare q = .lt := by
  fun_induction dropRepeats paths with
  | case1 => exact List.Pairwise.nil
  | case2 p => exact List.pairwise_singleton _ _
  | case3 p q rest hsame ih =>
      exact ih (h.sublist (List.Sublist.cons_cons _
        (List.sublist_cons_self ..)))
  | case4 p q rest hne ih =>
      obtain ⟨hfirst, hrest⟩ := List.pairwise_cons.1 h
      refine List.pairwise_cons.2 ⟨fun next hnext => ?_, ih hrest⟩
      -- all further paths stand behind the second or equal it
      have hlt := Path.compare_eq_lt (hfirst q (List.mem_cons_self ..))
        (by simpa using hne)
      rcases List.mem_cons.1 (dropRepeats_subset _ hnext) with rfl | hmem
      · exact hlt
      · exact Path.compare_lt_of_precedes hlt
          ((List.pairwise_cons.1 hrest).1 next hmem)

/-- A listing goes strictly upwards in the order of paths. -/
theorem listing_pairwise (entries : List Staged) (dir : Path) :
    (listing entries dir).Pairwise fun p q => p.compare q = .lt :=
  dropRepeats_pairwise (List.pairwise_mergeSort Path.precedes_trans
    Path.precedes_total _)

theorem listing_nodup (entries : List Staged) (dir : Path) :
    (listing entries dir).Nodup :=
  (listing_pairwise entries dir).imp Path.ne_of_compare_lt

end Staged

end CopyrightNotice
