/-
Files below a directory that holds the marker.

Where no link leads to a directory, one of the directories that are asked
about a file is the one with the marker (`NamesFile.reaches_enclosing`), and
it answers that it has it, if its path and that of the marker are short
enough to be asked with (`holds_of_sheltering`). What is remembered of
earlier answers does not stand against it: no directory with the marker is
remembered as one without (`Honest`), for files may be added to the tree in
the course of a run but not taken away. So the file is turned down
(`decider_ne_none`).
-/
import CopyrightNotice.Proofs.Path.Enclosing
import CopyrightNotice.Proofs.Tree.Growth
import CopyrightNotice.Proofs.Tree.Plain
import CopyrightNotice.Proofs.Tree.Spelling

namespace CopyrightNotice

namespace Tree

variable {t : Tree} {root path dir : Path} {l d : Location}

/-- The path `dir`, taken from `root`, leads to `d`, and over no link. -/
def Reaches (t : Tree) (root dir : Path) (d : Location) : Prop :=
  ∃ b, t.base root = .ok b
    ∧ Arrives t .target 0 (if dir.isAbsolute then [] else b) dir.steps d

/-- A directory below the root in which a file is stands among those that hold
the path of the file. -/
theorem NamesFile.reaches_enclosing {b : Location} {c : Bytes}
    (h : t.NamesFile (root.join path) l c) (ht : t.NoDirectoryLinks)
    (hbase : t.base root = .ok b) (hb : b <+: d) (hd : d <+: l) (hne : d ≠ l) :
    ∃ dir ∈ path.enclosing, t.Reaches root dir d := by
  obtain ⟨k, hk, harrives⟩ : ∃ k, k ≤ maxLinks
      ∧ Arrives t .itself k (if path.isAbsolute then [] else b)
      (parts path) l := by
    by_cases habs : path.isAbsolute = true
    · have hlocated := locate_eq_ok_iff.1 h.located
      rw [Path.join, if_pos habs] at hlocated
      have harrives := hlocated.arrives
      rw [if_pos habs] at harrives
      exact ⟨maxLinks, Nat.le_refl _, by rwa [if_pos habs]⟩
    · obtain ⟨b', k, hbase', hk, harrives⟩ :=
        base_of_locate (by simpa using habs) h.ne_nil_of_join h.located
      obtain rfl : b = b' := Except.ok.inj (hbase.symm.trans hbase')
      exact ⟨k, hk, by rwa [if_neg habs]⟩
  have hdirect := (harrives.direct ht hk (by simp [h.file]) (.inl rfl)).steps
  rw [filter_parts] at hdirect
  have hstart : (if path.isAbsolute then [] else b) <+: d := by
    split
    · exact List.nil_prefix
    · exact hb
  obtain ⟨front, hfront, hproper, harrives⟩ :=
    hdirect.passes (fun _ => Path.not_isVoid_of_mem_steps) hstart hd hne
  obtain ⟨dir, hdir, hsteps, habs⟩ := Path.exists_enclosing hfront hproper
  exact ⟨dir, hdir, b, hbase, by rwa [hsteps, habs]⟩

/-- A path without links to a directory that exists, taken from a root. -/
theorem Reaches.arrives (h : t.Reaches root dir d) (ht : t.NoDirectoryLinks)
    (hd : t.isDirectory d = true) :
    Arrives t .target 0 (if (root.join dir).isAbsolute then [] else t.here)
      (root.join dir).spelled d := by
  obtain ⟨b, hbase, harrives⟩ := h
  have hbehind : Arrives t .target 0 (if dir.isAbsolute then [] else b)
      dir.spelled d :=
    Arrives.of_steps (by rwa [filter_spelled]) hd
  by_cases habs : dir.isAbsolute = true
  · rw [Path.join, if_pos habs, if_pos habs]
    rwa [if_pos habs] at hbehind
  · have hrel : dir.isAbsolute = false := by simpa using habs
    rw [if_neg habs] at hbehind harrives
    rw [Path.isAbsolute_join hrel, Path.spelled_join hrel]
    -- the way to the root is that of its names alone, as no link is on it
    refine Arrives.append ?_ hbehind
    unfold base at hbase
    split at hbase
    · rename_i hnil
      cases hbase
      simp [Path.isAbsolute, Path.spelled, hnil, Path.split, Arrives.done]
    · have hb : t.isDirectory b = true := by
        by_cases hsteps : dir.steps = []
        · rw [hsteps] at harrives
          cases harrives
          exact hd
        · exact harrives.isDirectory hsteps
      have hroot :=
        (locate_eq_ok_iff.1 hbase).arrives.direct ht (Nat.le_refl _)
          (fun target hlink => by simp [isDirectory, hlink] at hb)
          (.inr ⟨rfl, hb⟩)
      refine Arrives.of_steps ?_ hb
      rw [filter_spelled, ← filter_parts]
      exact hroot.steps

/-- A root that is found has no zero byte. -/
private theorem not_nul_of_base {b : Location} (h : t.base root = .ok b) :
    (0 : UInt8) ∉ root.bytes := by
  unfold base at h
  split at h
  · rename_i hnil
    simp [hnil]
  · exact (locate_eq_ok_iff.1 h).noNul

end Tree

namespace OptOut

variable {o : OptOut} {t u : Tree} {dir : Path} {memo : Memo}
  {dirs : List Path}

/-- The directory that `dir` leads to holds the marker. -/
def Sheltering (o : OptOut) (t : Tree) (dir : Path) : Prop :=
  ∃ d, t.Reaches o.root dir d
    ∧ ({ t with here := d } : Tree).leadsTo (Path.ofText o.marker) = true

/-- A path that a directory can be asked with for its marker. -/
structure Askable (o : OptOut) (dir : Path) : Prop where
  short : (o.markerIn dir).bytes.length < Tree.pathLimit
  noNul : (0 : UInt8) ∉ dir.bytes

/-- Whether a directory shelters its files depends on its components alone. -/
private theorem sheltering_congr {dir' : Path}
    (h : dir.components = dir'.components) :
    o.Sheltering t dir ↔ o.Sheltering t dir' := by
  have hspelled := Path.respelled_of_components h
  simp only [Sheltering, Tree.Reaches, hspelled.absolute, hspelled.steps]

/-- A directory that holds the marker and can be asked says so. -/
private theorem holds_of_sheltering (h : o.Sheltering t dir)
    (ht : t.NoDirectoryLinks) (hask : o.Askable dir) :
    o.holds t dir = true := by
  obtain ⟨d, hreaches, hmarker⟩ := h
  obtain ⟨b, hbase, -⟩ := id hreaches
  unfold Tree.leadsTo at hmarker
  cases hl :
    ({ t with here := d } : Tree).locate .target (Path.ofText o.marker) with
  | error fault => simp [hl] at hmarker
  | ok e =>
      obtain ⟨hnul, hne, -, harrives⟩ := Tree.locate_eq_ok_iff.1 hl
      -- where paths start does not matter to a walk
      have hkept : Tree.Kept { t with here := d } t :=
        fun _ e he => ⟨e, he, rfl⟩
      replace harrives := harrives.grow hkept (by simp)
      have hnul' : (0 : UInt8) ∉ (o.markerIn dir).bytes := by
        intro hmem
        rcases Path.mem_join hmem with hmem | hmem | hmem
        · rcases Path.mem_join hmem with hmem | hmem | hmem
          · exact Tree.not_nul_of_base hbase hmem
          · exact hask.noNul hmem
          · cases hmem
        · exact hnul hmem
        · cases hmem
      have hlocated : t.Located .target (o.markerIn dir) e := by
        refine ⟨hnul', ?_, hask.short, ?_⟩
        · have hsuffix :=
            Path.suffix_join (o.root.join dir) (Path.ofText o.marker)
          exact fun hnil => hne (List.suffix_nil.1 (hnil ▸ hsuffix))
        · by_cases habs : (Path.ofText o.marker).isAbsolute = true
          · rw [if_pos habs] at harrives
            rwa [markerIn, Path.join, if_pos habs, if_pos habs]
          · have hrel : (Path.ofText o.marker).isAbsolute
              = false := by simpa using habs
            rw [if_neg habs] at harrives
            have hd := harrives.isDirectory (Tree.parts_ne_nil hrel hne)
            rw [markerIn, Path.isAbsolute_join hrel, Tree.parts_join hrel hne]
            exact (hreaches.arrives ht hd).append harrives
      rw [holds, Tree.leadsTo, Tree.locate_eq_ok_iff.2 hlocated]

-- =============================================================== memory

/-- No directory with the marker is remembered as one without. -/
def Honest (o : OptOut) (t : Tree) (memo : Memo) : Prop :=
  ∀ dir, o.Sheltering t dir → memo.lookup dir.components ≠ some false

theorem honest_nil (o : OptOut) (t : Tree) : o.Honest t [] :=
  fun _ _ => by simp

/-- A truthful answer keeps the memory honest. -/
theorem Honest.cons {found : Bool} (h : o.Honest t memo)
    (hfound : found = false → ¬o.Sheltering t dir) :
    o.Honest t ((dir.components, found) :: memo) := by
  intro dir' hdir'
  by_cases heq : dir'.components = dir.components
  · have hdir := (sheltering_congr heq).1 hdir'
    cases found with
    | false => exact absurd hdir (hfound rfl)
    | true => simp [heq]
  · have hne : (dir'.components == dir.components)
      = false := by simpa using heq
    simp only [List.lookup_cons, hne]
    exact h dir' hdir'

section Asking

variable (ht : t.NoDirectoryLinks) (hgrown : Tree.Grown t u)
  (hmemo : o.Honest t memo) (hask : ∀ dir ∈ dirs, o.Askable dir)

include ht hgrown in
/-- A directory that answers no has no marker, and had none. -/
theorem not_sheltering_of_holds (hdir : o.Askable dir)
    (h : o.holds u dir = false) : ¬o.Sheltering t dir := by
  intro hshelter
  have hholds : o.holds u dir = true :=
    hgrown.leadsTo (holds_of_sheltering hshelter ht hdir)
  rw [h] at hholds
  cases hholds

include ht hgrown hmemo hask

/-- Asking keeps the memory honest. -/
theorem honest_firstOf : o.Honest t (o.firstOf u memo dirs).memo := by
  induction dirs generalizing memo with
  | nil => exact hmemo
  | cons dir dirs ih =>
      have hdir := hask dir (List.mem_cons_self ..)
      have hdirs := fun dir' hdir' => hask dir' (List.mem_cons_of_mem _ hdir')
      unfold firstOf
      split
      · exact hmemo
      · exact ih hmemo hdirs
      · have hcons := hmemo.cons (not_sheltering_of_holds ht hgrown hdir)
        by_cases hfound : o.holds u dir = true
        · simp only [hfound, if_true] at hcons ⊢
          exact hcons
        · simp only [if_neg hfound]
          exact ih hcons hdirs

/-- Among directories one of which holds the marker, one is found that
decides. -/
theorem decider_ne_none {dir : Path} (hdir : dir ∈ dirs)
    (hshelter : o.Sheltering t dir) :
    (o.firstOf u memo dirs).decider ≠ none := by
  induction dirs generalizing memo with
  | nil => cases hdir
  | cons next dirs ih =>
      have hnext := hask next (List.mem_cons_self ..)
      have hdirs := fun dir' hdir' => hask dir' (List.mem_cons_of_mem _ hdir')
      unfold firstOf
      split
      · simp
      · rename_i hfalse
        rcases List.mem_cons.1 hdir with rfl | hdir
        · exact absurd hfalse (hmemo _ hshelter)
        · exact ih hmemo hdirs hdir
      · have hno := not_sheltering_of_holds (o := o) ht hgrown hnext
        by_cases hfound : o.holds u next = true
        · simp [hfound]
        · simp only [if_neg hfound]
          rcases List.mem_cons.1 hdir with rfl | hdir
          · exact absurd hshelter (hno (by simpa using hfound))
          · exact ih (hmemo.cons hno) hdirs hdir

end Asking

end OptOut

end CopyrightNotice
