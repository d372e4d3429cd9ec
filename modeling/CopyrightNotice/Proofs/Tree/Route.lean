/-
Walks cut in two, and walks without links.

A walk along two lists of parts arrives somewhere between them
(`Arrives.split`). So a path that is taken from a root leads through the
place where the root is, its base (`Tree.base`), whatever links the root
itself was reached by (`base_of_locate`).

With no link to follow a walk can be put together again, and what it goes
through is what its parts spell: `Arrives t .target 0` is the walk that
meets no link.
-/
import CopyrightNotice.Proofs.Path.Steps
import CopyrightNotice.Proofs.Tree.Arrival

namespace CopyrightNotice.Tree

variable {t : Tree} {goal : Goal} {links k : Nat} {l m e : Location}
  {part : Bytes} {rest front back todo : List Bytes}

-- ======================================================== one after the other

/-- Only directories are walked through. -/
theorem Arrives.isDirectory (h : Arrives t goal links l todo e)
    (hne : todo ≠ []) : t.isDirectory l = true := by
  cases h with
  | done => exact absurd rfl hne
  | stay dir | up dir | free dir | link dir | follow dir | enter dir =>
      exact dir

/-- A longer supply of links does no harm. -/
theorem Arrives.mono (h : Arrives t goal links l todo e) (hk : links ≤ k) :
    Arrives t goal k l todo e := by
  induction h generalizing k with
  | done => exact .done
  | stay dir hvoid _ ih => exact .stay dir hvoid (ih hk)
  | up dir _ ih => exact .up dir (ih hk)
  | free dir name hgoal entry => exact .free dir name hgoal entry
  | link dir name hgoal entry => exact .link dir name hgoal entry
  | follow dir name hplace hitself entry _ ih =>
      obtain ⟨k, rfl⟩ := Nat.exists_eq_add_of_le' (Nat.one_le_of_lt hk)
      exact .follow dir name hplace hitself entry
        (ih (Nat.le_of_succ_le_succ hk))
  | enter dir name hplace found solid _ ih =>
      exact .enter dir name hplace found solid (ih hk)

/-- A walk along two lists of parts goes to what the first one leads to. -/
theorem Arrives.split (h : Arrives t goal links l (front ++ back) e)
    (hback : back ≠ []) :
    ∃ k m, k ≤ links
      ∧ Arrives t .target links l front m
      ∧ Arrives t goal k m back e := by
  generalize htodo : front ++ back = todo at h
  -- induction on the way; the front ends before each turn or behind it
  induction h generalizing front with
  | done => exact absurd (List.append_eq_nil_iff.1 htodo).2 hback
  | @stay links l _ _ _ dir hvoid more ih =>
      rcases List.append_eq_cons_iff.1 htodo with ⟨rfl, rfl⟩
        | ⟨front, rfl, rfl⟩
      · exact ⟨links, l, Nat.le_refl _, .done, .stay dir hvoid more⟩
      · obtain ⟨k, m, hk, hfront, hrest⟩ := ih rfl
        exact ⟨k, m, hk, .stay dir hvoid hfront, hrest⟩
  | @up links l _ _ dir more ih =>
      rcases List.append_eq_cons_iff.1 htodo with ⟨rfl, rfl⟩
        | ⟨front, rfl, rfl⟩
      · exact ⟨links, l, Nat.le_refl _, .done, .up dir more⟩
      · obtain ⟨k, m, hk, hfront, hrest⟩ := ih rfl
        exact ⟨k, m, hk, .up dir hfront, hrest⟩
  -- these two are the end of a path, so nothing may be left behind them
  | @free links l _ dir name hgoal entry =>
      rcases List.append_eq_cons_iff.1 htodo with ⟨rfl, rfl⟩
        | ⟨front, -, hrest⟩
      · exact ⟨links, l, Nat.le_refl _, .done, .free dir name hgoal entry⟩
      · exact absurd (List.append_eq_nil_iff.1 hrest.symm).2 hback
  | @link links l _ _ dir name hgoal entry =>
      rcases List.append_eq_cons_iff.1 htodo with ⟨rfl, rfl⟩
        | ⟨front, -, hrest⟩
      · exact ⟨links, l, Nat.le_refl _, .done, .link dir name hgoal entry⟩
      · exact absurd (List.append_eq_nil_iff.1 hrest.symm).2 hback
  -- the target of the link is walked in front, at the cost of one link
  | @follow links l _ _ _ _ dir name hplace hitself entry more ih =>
      rcases List.append_eq_cons_iff.1 htodo with ⟨rfl, rfl⟩
        | ⟨front, rfl, rfl⟩
      · exact ⟨links + 1, l, Nat.le_refl _, .done,
          .follow dir name hplace hitself entry more⟩
      · obtain ⟨k, m, hk, hfront, hrest⟩ := ih (List.append_assoc ..)
        exact ⟨k, m, Nat.le_succ_of_le hk,
          .follow dir name (by simp) (by simp) entry hfront, hrest⟩
  | @enter links l _ _ _ _ dir name hplace found solid more ih =>
      rcases List.append_eq_cons_iff.1 htodo with ⟨rfl, rfl⟩
        | ⟨front, rfl, rfl⟩
      · exact ⟨links, l, Nat.le_refl _, .done,
          .enter dir name hplace found solid more⟩
      · obtain ⟨k, m, hk, hfront, hrest⟩ := ih rfl
        exact ⟨k, m, hk, .enter dir name (by simp) found solid hfront, hrest⟩

/-- A slash behind a path to a directory changes nothing. -/
private theorem Arrives.append_slash (h : Arrives t .target links l todo e)
    (hdir : t.isDirectory e = true) :
    Arrives t .target links l (todo ++ [[]]) e := by
  induction h with
  | done => exact .stay hdir rfl .done
  | stay dir hvoid _ ih => exact .stay dir hvoid (ih hdir)
  | up dir _ ih => exact .up dir (ih hdir)
  | free _ _ hgoal | link _ _ hgoal => cases hgoal
  | follow dir name _ _ entry _ ih =>
      exact .follow dir name (by simp) (by simp) entry (List.append_assoc ..
        ▸ ih hdir)
  | enter dir name _ found solid _ ih =>
      exact .enter dir name (by simp) found solid (ih hdir)

-- ================================================================= roots

/-- Where a path starts that is taken from `root`. -/
def base (t : Tree) (root : Path) : Except Fault Location :=
  if root.bytes = [] then .ok t.here else t.locate .target root

/-- There is no slash behind the path of a file. -/
private theorem NamesFile.no_slash {p : Path} {c : Bytes}
    (h : t.NamesFile p l c) : p.bytes.getLast? ≠ some Path.slash := by
  intro hlast
  have harrives := (locate_eq_ok_iff.1 h.located).arrives
  rw [parts_eq, if_pos hlast] at harrives
  have hdir := harrives.isDirectory_of_slash
  simp [Tree.isDirectory, h.file] at hdir

/-- A root is no file of its own. -/
theorem NamesFile.ne_nil_of_join {root path : Path} {c : Bytes}
    (h : t.NamesFile (root.join path) l c) : path.bytes ≠ [] := by
  obtain ⟨bytes⟩ := path
  rintro rfl
  have hnonempty := (locate_eq_ok_iff.1 h.located).nonempty
  rcases @Path.join_of_relative root ⟨[]⟩ rfl
    with ⟨-, hjoin⟩ | ⟨front, -, hjoin⟩ | ⟨-, hjoin⟩
  · rw [hjoin] at hnonempty
    exact hnonempty rfl
  all_goals
    refine h.no_slash ?_
    rw [hjoin]
    simp

/-- A path taken from a root leads on from where the root is. -/
theorem base_of_locate {root path : Path} (hrel : path.isAbsolute = false)
    (hne : path.bytes ≠ []) (h : t.locate goal (root.join path) = .ok e) :
    ∃ b k, t.base root = .ok b
      ∧ k ≤ maxLinks
      ∧ Arrives t goal k b (parts path) e := by
  obtain ⟨hnul, -, hshort, harrives⟩ := locate_eq_ok_iff.1 h
  rw [parts_join hrel hne, Path.isAbsolute_join hrel] at harrives
  obtain ⟨k, b, hk, hroot, hpath⟩ := harrives.split (parts_ne_nil hrel hne)
  refine ⟨b, k, ?_, hk, hpath⟩
  unfold base
  by_cases hempty : root.bytes = []
  · rw [if_pos hempty]
    have : root.spelled = [] := by simp [Path.spelled, hempty, Path.split]
    rw [this, if_neg (by simp [Path.isAbsolute, hempty])] at hroot
    cases hroot
    rfl
  · rw [if_neg hempty]
    have hfront := Path.prefix_join root hrel
    refine locate_eq_ok_iff.2 ⟨fun hmem => hnul (hfront.subset hmem), hempty,
      Nat.lt_of_le_of_lt hfront.length_le hshort, ?_⟩
    rw [parts_eq]
    by_cases hlast : root.bytes.getLast? = some Path.slash
    · rw [if_pos hlast]
      exact hroot.append_slash (hpath.isDirectory (parts_ne_nil hrel hne))
    · rwa [if_neg hlast, List.append_nil]

end CopyrightNotice.Tree
