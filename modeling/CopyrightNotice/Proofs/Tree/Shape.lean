/-
Trees that differ at most in what their files hold.

Walks look at where directories and links are and where files are, never
into a file. So all that a walk answers, faults included, is the same in
trees that are alike (`walk_eq`), and with it every question by path that
is not about content. Writing to a file that is there gives a tree that is
alike (`alike_set`), and changes the entry at one location only
(`entry?_set_of_ne`).
-/
import CopyrightNotice.Tree.Access

namespace CopyrightNotice

-- ============================================================== entries

/-- An entry without what it holds, if it is a file. -/
def Entry.shell : Entry → Entry
  | .file _ => .file []
  | e => e

/-- The shell of an entry shows links as they are. -/
theorem Entry.shell_eq_link {e : Entry} {target : Path} :
    e.shell = .link target ↔ e = .link target := by
  cases e <;> simp [shell]

theorem Entry.shell_eq_directory {e : Entry} :
    e.shell = .directory ↔ e = .directory := by
  cases e <;> simp [shell]

theorem Entry.shell_eq_file {e : Entry} :
    e.shell = .file [] ↔ ∃ c, e = .file c := by
  cases e <;> simp [shell]

namespace Tree

variable {t u v : Tree} {l m : Location} {e : Entry}

@[simp] theorem entry?_nil (t : Tree) : t.entry? [] = some .directory := rfl

/-- What stands somewhere is the top or a listed entry. -/
theorem mem_entries (h : t.entry? l = some e) :
    l = [] ∧ e = .directory ∨ (l, e) ∈ t.entries := by
  unfold entry? at h
  split at h
  · rename_i hnil
    exact Or.inl ⟨hnil, (Option.some.inj h).symm⟩
  · obtain ⟨before, after, hentries, -⟩ := List.lookup_eq_some_iff.1 h
    exact Or.inr (by simp [hentries])

/-- To take out one location does not change what is found at another one. -/
private theorem lookup_filter_of_ne {β : Type} (es : List (Location × β))
    (h : m ≠ l) : (es.filter (·.1 != l)).lookup m = es.lookup m := by
  induction es with
  | nil => rfl
  | cons head es ih =>
      obtain ⟨k, b⟩ := head
      by_cases hk : k = l
      · subst hk
        have hm : (m == k) = false := by simpa using h
        simp [List.lookup_cons, hm, ih]
      · simp [List.lookup_cons, hk, ih]

/-- The entry that was put somewhere stands there. -/
theorem entry?_set_self (t : Tree) (e : Entry) (h : l ≠ []) :
    Tree.entry? (t.set l e) l = some e := by
  unfold entry?
  simp [set, h]

/-- A new entry changes nothing at other locations. -/
theorem entry?_set_of_ne (t : Tree) (e : Entry) (h : m ≠ l) :
    Tree.entry? (t.set l e) m = t.entry? m := by
  have hm : (m == l) = false := by simpa using h
  unfold entry?
  by_cases hnil : m = []
  · simp [hnil]
  · simp only [if_neg hnil, set, List.lookup_cons, hm]
    exact lookup_filter_of_ne t.entries h

@[simp] theorem here_set (t : Tree) (l : Location) (e : Entry) :
    (t.set l e).here = t.here := rfl

@[simp] theorem unreadable_set (t : Tree) (l : Location) (e : Entry) :
    (t.set l e).unreadable = t.unreadable := rfl

@[simp] theorem unwritable_set (t : Tree) (l : Location) (e : Entry) :
    (t.set l e).unwritable = t.unwritable := rfl

-- ========================================================== alike trees

/-- Two trees with entries of the same kinds at the same places, and the
same links. Only what files hold may differ. -/
structure Alike (t u : Tree) : Prop where
  here : t.here = u.here
  unreadable : t.unreadable = u.unreadable
  unwritable : t.unwritable = u.unwritable
  shell : ∀ l, (t.entry? l).map Entry.shell = (u.entry? l).map Entry.shell

namespace Alike

theorem refl (t : Tree) : Alike t t := ⟨rfl, rfl, rfl, fun _ => rfl⟩

theorem symm (h : Alike t u) : Alike u t :=
  ⟨h.here.symm, h.unreadable.symm, h.unwritable.symm, fun l =>
    (h.shell l).symm⟩

/-- Likeness is handed on. -/
theorem trans (h : Alike t u) (k : Alike u v) : Alike t v :=
  ⟨h.here.trans k.here, h.unreadable.trans k.unreadable,
    h.unwritable.trans k.unwritable, fun l => (h.shell l).trans (k.shell l)⟩

/-- Where nothing stands in one tree, nothing stands in the other. -/
theorem none_iff (h : Alike t u) : t.entry? l = none ↔ u.entry? l = none := by
  rw [← Option.map_eq_none_iff (f := Entry.shell), h.shell,
    Option.map_eq_none_iff]

/-- Where something stands in one tree, something of its kind stands in the
other. -/
theorem some_of_some (h : Alike t u) (hl : t.entry? l = some e) :
    ∃ e', u.entry? l = some e' ∧ e'.shell = e.shell := by
  have hs := h.shell l
  rw [hl] at hs
  exact Option.map_eq_some_iff.1 hs.symm

/-- Links are the same in both. -/
theorem link_of_link (h : Alike t u) {target : Path}
    (hl : t.entry? l = some (.link target)) :
    u.entry? l = some (.link target) := by
  obtain ⟨e, he, hs⟩ := h.some_of_some hl
  rw [he, Entry.shell_eq_link.1 hs]

/-- Directories are the same in both. -/
theorem directory_of_directory (h : Alike t u)
    (hl : t.entry? l = some .directory) : u.entry? l = some .directory := by
  obtain ⟨e, he, hs⟩ := h.some_of_some hl
  rw [he, Entry.shell_eq_directory.1 hs]

/-- Files stand at the same places in both. -/
theorem file_of_file (h : Alike t u) {c : Bytes}
    (hl : t.entry? l = some (.file c)) : ∃ d, u.entry? l = some (.file d) := by
  obtain ⟨e, he, hs⟩ := h.some_of_some hl
  obtain ⟨d, rfl⟩ := Entry.shell_eq_file.1 hs
  exact ⟨d, he⟩

/-- So the question for a directory has one answer. -/
theorem isDirectory_eq (h : Alike t u) (l : Location) :
    t.isDirectory l = u.isDirectory l := by
  unfold isDirectory
  rw [Bool.eq_iff_iff, beq_iff_eq, beq_iff_eq]
  exact ⟨h.directory_of_directory, h.symm.directory_of_directory⟩

/-- Walks do not look into files. -/
theorem walk_eq (h : Alike t u) (goal : Goal) (links : Nat) (l : Location)
    (todo : List Bytes) :
    t.walk goal links l todo = u.walk goal links l todo := by
  induction links, l, todo using Tree.walk.induct t goal with
  | case1 => rw [walk, walk]
  | case2 links l part rest hdir =>
      have hdir' := hdir
      rw [h.isDirectory_eq] at hdir'
      rw [walk, walk, if_pos hdir, if_pos hdir']
  | case3 links l part rest hdir hvoid ih =>
      rw [walk, walk, ← h.isDirectory_eq, if_neg hdir, if_neg hdir,
        if_pos hvoid, if_pos hvoid, ih]
  | case4 links l rest hdir hvoid ih =>
      rw [walk, walk, ← h.isDirectory_eq, if_neg hdir, if_neg hdir,
        if_neg hvoid, if_neg hvoid, if_pos rfl, if_pos rfl, ih]
  | case5 links l part rest hdir hvoid hup hlong =>
      rw [walk, walk, ← h.isDirectory_eq]
      simp only [if_neg hdir, if_neg hvoid, if_neg hup, if_pos hlong]
  | case6 links l part rest hdir hvoid hup hlong hplace =>
      rw [walk, walk, ← h.isDirectory_eq]
      simp only [if_neg hdir, if_neg hvoid, if_neg hup, if_neg hlong,
        if_pos hplace]
  -- nothing stands there: whether that is a goal does not depend on the tree
  | case7 links l part rest hdir hvoid hup hlong hplace next hnext hfree
  | case8 links l part rest hdir hvoid hup hlong hplace next hnext hfree =>
      rw [walk, walk, ← h.isDirectory_eq]
      simp only [if_neg hdir, if_neg hvoid, if_neg hup, if_neg hlong,
        if_neg hplace]
      rw [show t.entry? (l ++ [part]) = none from hnext,
        show u.entry? (l ++ [part]) = none from h.none_iff.1 hnext]
  | case9 links l part rest hdir hvoid hup hlong hplace next target
      hnext hitself =>
      rw [walk, walk, ← h.isDirectory_eq]
      simp only [if_neg hdir, if_neg hvoid, if_neg hup, if_neg hlong,
        if_neg hplace]
      rw [show t.entry? (l ++ [part]) = some (.link target) from hnext,
        show u.entry? (l ++ [part]) = some (.link target)
          from h.link_of_link hnext]
      simp only [if_pos hitself]
  | case10 l part rest hdir hvoid hup hlong hplace next target hnext hitself =>
      rw [walk, walk, ← h.isDirectory_eq]
      simp only [if_neg hdir, if_neg hvoid, if_neg hup, if_neg hlong,
        if_neg hplace]
      rw [show t.entry? (l ++ [part]) = some (.link target) from hnext,
        show u.entry? (l ++ [part]) = some (.link target)
          from h.link_of_link hnext]
  | case11 l part rest hdir hvoid hup hlong hplace next target hnext
      hitself links ih =>
      rw [walk, walk, ← h.isDirectory_eq]
      simp only [if_neg hdir, if_neg hvoid, if_neg hup, if_neg hlong,
        if_neg hplace]
      rw [show t.entry? (l ++ [part]) = some (.link target) from hnext,
        show u.entry? (l ++ [part]) = some (.link target)
          from h.link_of_link hnext]
      simp only [if_neg hitself]
      exact ih
  -- the content of a file may differ, but the walk does not look at it
  | case12 links l part rest hdir hvoid hup hlong hplace next e
      hlink hnext ih =>
      rw [walk, walk, ← h.isDirectory_eq]
      simp only [if_neg hdir, if_neg hvoid, if_neg hup, if_neg hlong,
        if_neg hplace]
      cases e with
      | link target => exact absurd rfl (hlink target)
      | directory =>
          rw [show t.entry? (l ++ [part]) = some .directory from hnext,
            show u.entry? (l ++ [part]) = some .directory
              from h.directory_of_directory hnext]
          exact ih
      | file c =>
          obtain ⟨d, hd⟩ := h.file_of_file hnext
          rw [show t.entry? (l ++ [part]) = some (.file c) from hnext,
            show u.entry? (l ++ [part]) = some (.file d) from hd]
          exact ih

/-- Paths lead to the same locations in both. -/
theorem locate_eq (h : Alike t u) (goal : Goal) (p : Path) :
    t.locate goal p = u.locate goal p := by
  unfold locate
  rw [h.here, h.walk_eq]

/-- A path leads somewhere in both or in neither. -/
theorem leadsTo_eq (h : Alike t u) (p : Path) : t.leadsTo p = u.leadsTo p := by
  unfold leadsTo
  rw [h.locate_eq]

/-- A path leads to an entry of one kind, or for one reason to none. -/
theorem entryAt_shell (h : Alike t u) (p : Path) :
    (t.entryAt p).map Entry.shell = (u.entryAt p).map Entry.shell := by
  simp only [entryAt, h.locate_eq, bind, Except.bind]
  split
  · rfl
  · rename_i l _
    have hl := h.shell l
    cases ht : t.entry? l <;> cases hu : u.entry? l <;> simp_all [Except.map]

end Alike

/-- A file that gets other content leaves the tree alike. -/
theorem alike_set {c : Bytes} (hl : t.entry? l = some (.file c)) (d : Bytes) :
    Alike t (t.set l (.file d)) where
  here := rfl
  unreadable := rfl
  unwritable := rfl
  shell m := by
    by_cases hm : m = l
    · subst hm
      have hne : m ≠ [] := by
        rintro rfl
        cases hl
      rw [hl, entry?_set_self t _ hne]
      rfl
    · rw [entry?_set_of_ne t _ hm]

end Tree

end CopyrightNotice
