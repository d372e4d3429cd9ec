/-
Trees that gain files. A run may make a file that was not there, and give
files other content; everything else stays. So what a walk found it finds
again (`Arrives.grow`), and a walk that ends at something old went there
before (`Arrives.ungrow`): new files are no directories, and nothing leads on
through them.
-/
import CopyrightNotice.Proofs.Tree.Arrival

namespace CopyrightNotice.Tree

variable {t u v : Tree} {goal : Goal} {links : Nat} {l e : Location}
  {todo : List Bytes}

/-- All that stands in the tree `t` stands in `u`, but for what files hold. -/
def Kept (t u : Tree) : Prop :=
  ∀ l e, t.entry? l = some e → ∃ e', u.entry? l = some e' ∧ e'.shell = e.shell

/-- The tree `u` is `t` with perhaps more files, and with perhaps other content
in files. -/
structure Grown (t u : Tree) : Prop where
  here : t.here = u.here
  kept : Kept t u
  added : ∀ l e, u.entry? l = some e → t.entry? l = none → ∃ c, e = .file c

namespace Kept

/-- Directories stay. -/
theorem directory (h : Kept t u) (hl : t.isDirectory l = true) :
    u.isDirectory l = true := by
  obtain ⟨e, he, hshell⟩ := h l _ (eq_of_beq hl)
  rw [isDirectory, he, Entry.shell_eq_directory.1 hshell]
  rfl

/-- Links stay, with their targets. -/
theorem link (h : Kept t u) {target : Path}
    (hl : t.entry? l = some (.link target)) :
    u.entry? l = some (.link target) := by
  obtain ⟨e, he, hshell⟩ := h l _ hl
  rw [he, Entry.shell_eq_link.1 hshell]

end Kept

/-- A walk that found something finds it again. -/
theorem Arrives.grow (h : Arrives t goal links l todo e) (hkept : Kept t u)
    (hgoal : goal ≠ .place) : Arrives u goal links l todo e := by
  induction h with
  | done => exact .done
  | stay dir hvoid _ ih => exact .stay (hkept.directory dir) hvoid ih
  | up dir _ ih => exact .up (hkept.directory dir) ih
  | free _ _ hplace => exact absurd hplace hgoal
  | link dir name hitself entry =>
      exact .link (hkept.directory dir) name hitself (hkept.link entry)
  | follow dir name hplace hitself entry _ ih =>
      exact .follow (hkept.directory dir) name hplace hitself
        (hkept.link entry) ih
  | enter dir name hplace found solid _ ih =>
      obtain ⟨e', he', hshell⟩ := hkept _ _ found
      refine .enter (hkept.directory dir) name hplace he'
        (fun target htarget => ?_) ih
      rw [htarget] at hshell
      exact solid target (Entry.shell_eq_link.1 hshell.symm)

namespace Grown

theorem refl (t : Tree) : Grown t t :=
  ⟨rfl, fun _ e he => ⟨e, he, rfl⟩, fun _ _ he hnone => by simp [he] at hnone⟩

theorem trans (h : Grown t u) (k : Grown u v) : Grown t v where
  here := h.here.trans k.here
  kept l e he := by
    obtain ⟨e', he', hshell⟩ := h.kept l e he
    obtain ⟨e'', he'', hshell'⟩ := k.kept l e' he'
    exact ⟨e'', he'', hshell'.trans hshell⟩
  added l e he hnone := by
    cases hu : u.entry? l with
    | none => exact k.added l e he hu
    | some e' =>
        obtain ⟨c, rfl⟩ := h.added l e' hu hnone
        obtain ⟨e'', he'', hshell⟩ := k.kept l _ hu
        rw [he] at he''
        cases he''
        exact Entry.shell_eq_file.1 hshell

/-- A file written where there was a file, or nothing. -/
theorem set (hl : ∀ e, t.entry? l = some e → ∃ c, e = .file c) (hne : l ≠ [])
    (d : Bytes) : Grown t (t.set l (.file d)) where
  here := rfl
  kept m e he := by
    by_cases hm : m = l
    · subst hm
      obtain ⟨c, rfl⟩ := hl e he
      exact ⟨_, entry?_set_self t _ hne, rfl⟩
    · exact ⟨e, (entry?_set_of_ne t _ hm).trans he, rfl⟩
  added m e he hnone := by
    by_cases hm : m = l
    · subst hm
      rw [entry?_set_self t _ hne] at he
      cases he
      exact ⟨d, rfl⟩
    · rw [entry?_set_of_ne t _ hm, hnone] at he
      cases he

/-- A path that leads somewhere still does. -/
theorem leadsTo (h : Grown t u) {p : Path} (hp : t.leadsTo p = true) :
    u.leadsTo p = true := by
  unfold Tree.leadsTo at hp ⊢
  cases hl : t.locate .target p with
  | error fault => simp [hl] at hp
  | ok e =>
      obtain ⟨hnul, hne, hshort, harrives⟩ := locate_eq_ok_iff.1 hl
      rw [locate_eq_ok_iff.2
        ⟨hnul, hne, hshort, h.here ▸ harrives.grow h.kept (by simp)⟩]

/-- What is no file is old. -/
theorem old_of_not_file (h : Grown t u) {entry : Entry}
    (hl : u.entry? l = some entry) (hfile : ∀ c, entry ≠ .file c) :
    ∃ old, t.entry? l = some old ∧ old.shell = entry.shell := by
  cases ht : t.entry? l with
  | none =>
      obtain ⟨c, hc⟩ := h.added l _ hl ht
      exact absurd hc (hfile c)
  | some old =>
      obtain ⟨e', he', hshell⟩ := h.kept l old ht
      rw [hl] at he'
      cases he'
      exact ⟨old, rfl, hshell.symm⟩

/-- A directory in the grown tree, at a place that was taken, was one
before. -/
theorem directory_of_grown (h : Grown t u) (hl : u.isDirectory l = true) :
    t.isDirectory l = true := by
  obtain ⟨old, hold, hshell⟩ := h.old_of_not_file (eq_of_beq hl) (by simp)
  rw [isDirectory, hold, Entry.shell_eq_directory.1 hshell]
  rfl

/-- A link in the grown tree, at a place that was taken, was the same link
before. -/
theorem link_of_grown (h : Grown t u) {target : Path}
    (hl : u.entry? l = some (.link target)) :
    t.entry? l = some (.link target) := by
  obtain ⟨old, hold, hshell⟩ := h.old_of_not_file hl (by simp)
  rw [hold, Entry.shell_eq_link.1 hshell]

end Grown

/-- A walk that ends at something old went there before. -/
theorem Arrives.ungrow (h : Arrives u .itself links l todo e)
    (hgrown : Grown t u) (he : t.entry? e ≠ none) :
    Arrives t .itself links l todo e := by
  induction h with
  | done => exact .done
  | stay dir hvoid _ ih =>
      exact .stay (hgrown.directory_of_grown dir) hvoid (ih he)
  | up dir _ ih => exact .up (hgrown.directory_of_grown dir) (ih he)
  | free _ _ hgoal => cases hgoal
  | link dir name hgoal entry =>
      exact .link (hgrown.directory_of_grown dir) name hgoal
        (hgrown.link_of_grown entry)
  | follow dir name hplace hitself entry _ ih =>
      exact .follow (hgrown.directory_of_grown dir) name hplace hitself
        (hgrown.link_of_grown entry) (ih he)
  | @enter _ l part rest entry _ dir name hplace found solid more ih =>
      cases ht : t.entry? (l ++ [part]) with
      | none =>
          -- nothing leads on through a new file
          obtain ⟨c, rfl⟩ := hgrown.added _ _ found ht
          cases rest with
          | nil =>
              cases more
              exact absurd ht he
          | cons next rest =>
              have hdir : u.isDirectory (l ++ [part]) = true := by
                cases more <;> assumption
              simp [isDirectory, found] at hdir
      | some old =>
          refine .enter (hgrown.directory_of_grown dir) name hplace ht
            (fun target htarget => ?_)
            (ih he)
          rw [htarget] at ht
          have hlink := hgrown.kept.link ht
          rw [found] at hlink
          exact solid target (Option.some.inj hlink)

/-- A file named in the grown tree, at a place that was taken, was a file named
so before. -/
theorem Grown.namesFile (h : Grown t u) {p : Path} {c : Bytes}
    (hp : u.NamesFile p l c) (hl : t.entry? l ≠ none) :
    ∃ d, t.NamesFile p l d := by
  obtain ⟨hnul, hne, hshort, harrives⟩ := locate_eq_ok_iff.1 hp.located
  obtain ⟨e, he⟩ := Option.ne_none_iff_exists'.1 hl
  obtain ⟨e', he', hshell⟩ := h.kept l e he
  rw [hp.file] at he'
  cases he'
  obtain ⟨d, rfl⟩ := Entry.shell_eq_file.1 hshell.symm
  exact ⟨d,
    locate_eq_ok_iff.2 ⟨hnul, hne, hshort, h.here ▸ harrives.ungrow h hl⟩, he⟩

-- =============================================================== changes

/-- Alike trees stay alike when files are written at one place in both. -/
theorem Alike.set (h : Alike t u) (hne : l ≠ []) (c d : Bytes) :
    Alike (t.set l (.file c)) (u.set l (.file d)) where
  here := h.here
  unreadable := h.unreadable
  unwritable := h.unwritable
  shell m := by
    by_cases hm : m = l
    · subst hm
      rw [entry?_set_self t _ hne, entry?_set_self u _ hne]
      rfl
    · rw [entry?_set_of_ne t _ hm, entry?_set_of_ne u _ hm]
      exact h.shell m

/-- Where a file is opened in one tree, it is opened in an alike one. What it
holds may differ only where the trees do. -/
theorem Alike.openFile (h : Alike t u) (p : Path) :
    (∃ fault, t.openFile p = .error fault ∧ u.openFile p = .error fault)
      ∨ ∃ l c d, t.openFile p = .ok (l, c) ∧ u.openFile p = .ok (l, d) ∧ l ≠ []
        ∧ (∀ e, t.entry? l = some e → ∃ b, e = .file b)
        ∧ (t.entry? l = u.entry? l → c = d) := by
  simp only [Tree.openFile, bind, Except.bind, ← h.locate_eq]
  cases t.locate .place p with
  | error fault => exact Or.inl ⟨fault, rfl, rfl⟩
  | ok l =>
      dsimp only
      rw [← h.unwritable]
      cases ht : t.entry? l with
      -- a new file, made in both trees
      | none =>
          rw [h.none_iff.1 ht]
          by_cases hdenied : t.unwritable.contains l = true
          · simp only [hdenied, if_true]
            exact Or.inl ⟨.denied, rfl, rfl⟩
          · simp only [if_neg hdenied]
            refine Or.inr ⟨l, [], [], rfl, rfl, ?_, by simp [ht], fun _ => rfl⟩
            rintro rfl
            cases ht
      | some e =>
          cases e with
          | link target =>
              rw [h.link_of_link ht]
              exact Or.inl ⟨.notFound, rfl, rfl⟩
          | directory =>
              rw [h.directory_of_directory ht]
              exact Or.inl ⟨.isDirectory, rfl, rfl⟩
          -- an old file, which may hold something else in the other tree
          | file c =>
              obtain ⟨d, hd⟩ := h.file_of_file ht
              rw [hd]
              by_cases hdenied : t.unwritable.contains l = true
              · simp only [hdenied, if_true]
                exact Or.inl ⟨.denied, rfl, rfl⟩
              · simp only [if_neg hdenied]
                refine Or.inr ⟨l, c, d, rfl, rfl,
                  ?_, by simp [ht], by simp [ht, hd]⟩
                rintro rfl
                cases ht

end CopyrightNotice.Tree

namespace CopyrightNotice.Write

open CopyrightNotice.Tree (Alike Grown)

variable {t u : Tree}

/-- The file that is written. -/
def path : Write → Path
  | .replace path _ | .extend path _ => path

/-- What is in the file afterwards, if it held `old`. -/
def result (old : Bytes) : Write → Bytes
  | .replace _ content => content
  | .extend _ content => old ++ content

/-- A write opens the file and sets what it holds. -/
theorem apply_eq (w : Write) (t : Tree) :
    w.apply t
      = t.openFile w.path
        >>= fun (l, old) => .ok (t.set l (.file (w.result old))) := by
  cases w <;> rfl

/-- A change is made at one place in alike trees, or for one reason in
neither. -/
theorem apply_alike (w : Write) (h : Alike t u) :
    (∃ fault, w.apply t = .error fault ∧ w.apply u = .error fault)
      ∨ ∃ t' u', w.apply t = .ok t'
        ∧ w.apply u = .ok u'
        ∧ Alike t' u'
        ∧ Grown t t'
        ∧ ∀ l, t'.entry? l ≠ u'.entry? l → t.entry? l ≠ u.entry? l := by
  rw [apply_eq, apply_eq]
  rcases h.openFile w.path with ⟨fault, ht, hu⟩ | ⟨l, c, d, ht, hu, hne,
    hfile, hsame⟩
  · rw [ht, hu]
    exact Or.inl ⟨fault, rfl, rfl⟩
  · rw [ht, hu]
    refine Or.inr ⟨_, _, rfl, rfl, h.set hne _ _, .set hfile hne _,
      fun m hm heq => hm ?_⟩
    by_cases hml : m = l
    · subst hml
      rw [Tree.entry?_set_self t _ hne, Tree.entry?_set_self u _ hne,
        hsame heq]
    · rw [Tree.entry?_set_of_ne t _ hml, Tree.entry?_set_of_ne u _ hml, heq]

end CopyrightNotice.Write
