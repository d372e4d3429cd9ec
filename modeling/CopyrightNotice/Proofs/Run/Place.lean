/-
Where an update writes.

The filter asks what stands at the end of a path and follows no link there;
the links in front of the end are followed, as by the reading and writing
that come later. So an admitted path names a regular file, and an update of
it changes nothing else; but the file stands where the path says only if
none of the names on the way is a link (`admitted_in_place_iff`). Through a
link to a directory an update leaves the directories that the path spells
(`not_forall_admitted_straight`).
-/
import CopyrightNotice.Proofs.Run.Step
import CopyrightNotice.Proofs.Tree.Route

namespace CopyrightNotice

namespace Tree

variable {t : Tree} {goal : Goal} {links : Nat} {l e : Location}
  {part : Bytes} {names more todo : List Bytes}

-- ======================================================== ways without links

/-- No link stands on the way from `l` along some names, nor at its end. -/
def Straight (t : Tree) (l : Location) (names : List Bytes) : Prop :=
  ∀ front, front ≠ [] → front <+: names → ∀ target,
    t.entry? (l ++ front) ≠ some (.link target)

theorem Straight.head (h : t.Straight l (part :: names)) (target : Path) :
    t.entry? (l ++ [part]) ≠ some (.link target) :=
  h [part] (by simp) ⟨names, rfl⟩ target

theorem Straight.tail (h : t.Straight l (part :: names)) :
    t.Straight (l ++ [part]) names := by
  intro front _ hfront target
  rw [List.append_assoc]
  exact h (part :: front) (by simp) (List.cons_prefix_cons.2 ⟨rfl, hfront⟩)
    target

/-- A walk that goes no step up and meets no link ends where its names
lead. -/
private theorem Arrives.eq_append (h : Arrives t goal links l todo e)
    (hup : [Path.dot, Path.dot] ∉ todo)
    (hstraight : t.Straight l (todo.filter (!Path.isVoid ·))) :
    e = l ++ todo.filter (!Path.isVoid ·) := by
  induction h with
  | done => simp
  | stay _ hvoid _ ih =>
      simp only [hvoid, List.filter_cons, Bool.not_true,
        Bool.false_eq_true, if_false]
        at hstraight ⊢
      exact ih (fun hmem => hup (List.mem_cons_of_mem _ hmem)) hstraight
  | up => exact absurd (List.mem_cons_self ..) hup
  | free _ name => simp [name.notVoid]
  | link _ name => simp [name.notVoid]
  | follow _ name _ _ entry =>
      simp only [name.notVoid, List.filter_cons, Bool.not_false,
        if_true] at hstraight
      exact absurd entry (hstraight.head _)
  | enter _ name _ _ _ _ ih =>
      simp only [name.notVoid, List.filter_cons, Bool.not_false,
        if_true] at hstraight ⊢
      rw [ih (fun hmem => hup (List.mem_cons_of_mem _ hmem)) hstraight.tail]
      simp

/-- Every entry stands in a directory. -/
def Grounded (t : Tree) : Prop :=
  ∀ l e, t.entry? l = some e → t.isDirectory l.dropLast = true

/-- It is enough to look at the entries listed. -/
private theorem grounded_of_entries
    (h : ∀ pair ∈ t.entries, t.isDirectory pair.1.dropLast = true) :
    t.Grounded := by
  intro l e hl
  rcases mem_entries hl with ⟨rfl, -⟩ | hmem
  · rfl
  · exact h _ hmem

/-- All that is above an entry is a directory. -/
theorem Grounded.isDirectory (h : t.Grounded) {entry : Entry}
    (hl : t.entry? (l ++ more) = some entry) (hmore : more ≠ []) :
    t.isDirectory l = true := by
  induction more using List.reverseRecOn generalizing entry with
  | nil => exact absurd rfl hmore
  | append_singleton more name ih =>
      have hparent := h _ _ hl
      rw [← List.append_assoc, List.dropLast_concat] at hparent
      by_cases hnil : more = []
      · simpa [hnil] using hparent
      · exact ih (eq_of_beq hparent) hnil

/-- The way to an entry that is no link is straight. -/
private theorem Grounded.straight (h : t.Grounded) {c : Bytes}
    (hfile : t.entry? (l ++ names) = some (.file c)) : t.Straight l names := by
  rintro front - ⟨back, rfl⟩ target hlink
  by_cases hback : back = []
  · rw [hback, List.append_nil, hlink] at hfile
    cases hfile
  · rw [← List.append_assoc] at hfile
    have hdir := h.isDirectory hfile hback
    simp [Tree.isDirectory, hlink] at hdir

/-- A path without steps up names a file at the very place that it spells if
and only if there are no links on the way from its root. -/
theorem NamesFile.place_iff {root path : Path} {c : Bytes}
    (hgrounded : t.Grounded) (hrel : path.isAbsolute = false)
    (hclimbs : path.climbs = false) (h : t.NamesFile (root.join path) l c) :
    ∃ b, t.base root = .ok b
      ∧ (l = b ++ path.steps ↔ t.Straight b path.steps) := by
  obtain ⟨b, k, hbase, -, harrives⟩ :=
    base_of_locate hrel h.ne_nil_of_join h.located
  refine ⟨b, hbase, fun hl => ?_, fun hstraight => ?_⟩
  · exact hgrounded.straight (hl ▸ h.file)
  · rw [← filter_parts] at hstraight ⊢
    exact harrives.eq_append (up_not_mem_parts hclimbs) hstraight

end Tree

-- ============================================================== result

/-- An admitted path without steps up names a regular file, and an update of it
changes nothing else in the tree. In a tree whose entries stand in directories,
the file stands at the place that the path spells if and only if there are no
links on the way from the root. -/
theorem admitted_in_place_iff (t : Task) (s s' : Session) (path : Path)
    (hrel : path.isAbsolute = false) (hclimbs : path.climbs = false)
    (hgrounded : s.tree.Grounded)
    (h : t.selection.askWorkingTree path s = .ok .admitted s') :
    ∃ b l c, s.tree.base t.root = .ok b
      ∧ s.tree.NamesFile (t.root.join path) l c
      ∧ (l = b ++ path.steps ↔ s.tree.Straight b path.steps)
      ∧ ∀ m, m ≠ l →
        Tree.entry? (Job.left
            (({ t with check := false } : Task).processFile path s)).tree m
          = s.tree.entry? m := by
  obtain ⟨-, l, c, hnames⟩ := Selection.admitted_of_askWorkingTree h
  obtain ⟨b, hbase, hplace⟩ :=
    Tree.NamesFile.place_iff hgrounded hrel hclimbs hnames
  refine ⟨b, l, c, hbase, hnames, hplace, fun m hm => ?_⟩
  refine Task.UpdateStep.entry_eq (Task.updateStep_processFile rfl) fun d hd =>
    ?_
  exact hm (hd.unique hnames).1

/-- A directory with a file, and a link to the directory. -/
def linkedFiles : Tree :=
  { entries :=
      [([Repository.name "r"], .directory),
        ([Repository.name "r", Repository.name "e"], .directory),
        ([Repository.name "r", Repository.name "e", Repository.name "x.rs"],
          .file (Utf8.encode "fn main() {}\n".toList)),
        ([Repository.name "r", Repository.name "d"],
            .link (Path.ofString "e"))] }

theorem admitted_in_place_of_linked_files :
    let t : Task :=
      { root := Path.ofString "/r", check := false
        notice :=
        ⟨["Copyright (c) 2024 A".toList], by simp, by decide, by decide⟩ }
    let s : Session := { tree := linkedFiles }
    let path := Path.ofString "e/x.rs"
    path.isAbsolute = false ∧ path.climbs = false ∧ s.tree.Grounded
      ∧ t.selection.askWorkingTree path s = .ok .admitted s
      ∧ ∃ b l c, s.tree.base t.root = .ok b
      ∧ s.tree.NamesFile (t.root.join path) l c
        ∧ (l = b ++ path.steps ↔ s.tree.Straight b path.steps)
        ∧ ∀ m, m ≠ l →
          Tree.entry? (Job.left
            (({ t with check := false } : Task).processFile path s)).tree m
            = s.tree.entry? m := by
  intro t s path
  have hrel : path.isAbsolute = false := by decide
  have hclimbs : path.climbs = false := by decide
  have hgrounded : linkedFiles.Grounded := Tree.grounded_of_entries (by decide)
  have hfile : linkedFiles.entryAt
      ((Path.ofString "/r").join (Path.ofString "e/x.rs"))
      = .ok (.file (Utf8.encode "fn main() {}\n".toList)) := by
    rw [Tree.entryAt, Tree.locate_eq_of_locateWithin 5 rfl]
    rfl
  have hadmit : t.selection.askWorkingTree path s = .ok .admitted s :=
    Selection.askWorkingTree_of_file hfile
  exact ⟨hrel, hclimbs, hgrounded, hadmit,
    admitted_in_place_iff t s s path hrel hclimbs hgrounded hadmit⟩

/-- A path that leads through a link to a directory is admitted. -/
theorem not_forall_admitted_straight :
    ¬∀ (t : Task) (s s' : Session) (path : Path) (b : Location),
      path.isAbsolute = false → path.climbs = false →
      t.selection.askWorkingTree path s = .ok .admitted s' →
      s.tree.base t.root = .ok b → s.tree.Straight b path.steps := by
  intro h
  have hfile : linkedFiles.entryAt
      ((Path.ofString "/r").join (Path.ofString "d/x.rs"))
      = .ok (.file (Utf8.encode "fn main() {}\n".toList)) := by
    rw [Tree.entryAt, Tree.locate_eq_of_locateWithin 5 rfl]
    rfl
  have hbase : linkedFiles.base (Path.ofString "/r")
      = .ok [Repository.name "r"] := by
    rw [Tree.base, Tree.locate_eq_of_locateWithin 2 rfl]
    rfl
  have hstraight := h
    { root := Path.ofString "/r", check := false
      notice :=
      ⟨["Copyright (c) 2024 A".toList], by simp, by decide, by decide⟩ }
    { tree := linkedFiles } { tree := linkedFiles } (Path.ofString "d/x.rs")
    [Repository.name "r"] (by decide) (by decide)
      (Selection.askWorkingTree_of_file hfile) hbase
  exact hstraight [Repository.name "d"] (by decide) (by decide)
    (Path.ofString "e") (by decide)

end CopyrightNotice
