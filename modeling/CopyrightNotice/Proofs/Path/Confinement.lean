/-
The target directory stays in the repository.

From one absolute path to another there is a way without a step up only if
the components of the first are the leading components of the second, and
then the way is what stands behind them (`difference?_eq_some_iff`). This is
about components: `/repo2` does not lie in `/repo`.

A walk from the top ends at names that a path can spell
(`Tree.Arrives.proper`), so a path without links has no step up. For a
directory and a root that have such paths it is therefore enough to compare
components. A path that has none is compared as it is spelled, and a step up
in it may not be left in the way (`Workspace.relativeDir_confined`).

# What exists, and has no canonical path

A directory that lies too deep has none, though it may be reached by links.
It is then compared as it is spelled, too, and the links on the way to it are
not seen: a link in the repository that leads out of it is accepted by its
name (`Workspace.not_forall_accepted_iff_inside`).
-/
import CopyrightNotice.Proofs.Path.Assembly
import CopyrightNotice.Proofs.Tree.Resolution
import CopyrightNotice.Workspace

namespace CopyrightNotice

-- ====================================================== names of a location

/-- The location's names are steps down that a path can spell. -/
def Location.Proper (l : Location) : Prop :=
  ∀ name ∈ l, Path.slash ∉ name ∧ Path.isVoid name = false
    ∧ name ≠ [Path.dot, Path.dot]

namespace Tree

variable {t : Tree} {goal : Goal} {links : Nat} {l e : Location}
  {todo : List Bytes}

/-- The parts that a walk takes have no slash in them. -/
theorem slash_not_mem_of_mem_parts {p : Path} {part : Bytes}
    (h : part ∈ parts p) : Path.slash ∉ part := by
  rw [parts_eq] at h
  rcases List.mem_append.1 h with h | h
  · exact Path.slash_not_mem_of_mem_split (List.mem_filter.1 h).1
  · split at h
    · simp [List.mem_singleton.1 h]
    · cases h

/-- Another name that a path can spell keeps a location proper. -/
theorem Named.proper_append {name : Bytes} (h : Named name)
    (hname : Path.slash ∉ name) (hl : l.Proper) :
    Location.Proper (l ++ [name]) := by
  intro other hother
  rcases List.mem_append.1 hother with hother | hother
  · exact hl other hother
  · rw [List.mem_singleton.1 hother]
    exact ⟨hname, h.notVoid, h.notUp⟩

/-- Along parts of paths a walk comes to names that a path can spell. -/
theorem Arrives.proper (h : Arrives t goal links l todo e) (hl : l.Proper)
    (htodo : ∀ part ∈ todo, Path.slash ∉ part) : e.Proper := by
  induction h with
  | done => exact hl
  | stay _ _ _ ih =>
      exact ih hl fun part hpart => htodo part (List.mem_cons_of_mem _ hpart)
  | up _ _ ih =>
      exact ih (fun name hname => hl name (List.dropLast_subset _ hname))
        fun part hpart => htodo part (List.mem_cons_of_mem _ hpart)
  | free _ name | link _ name =>
      exact name.proper_append (htodo _ (List.mem_cons_self ..)) hl
  | @follow _ _ _ _ target _ _ _ _ _ _ _ ih =>
      refine ih ?_ fun part hpart => ?_
      · split
        · exact fun _ hname => absurd hname List.not_mem_nil
        · exact hl
      · rcases List.mem_append.1 hpart with hpart | hpart
        · exact slash_not_mem_of_mem_parts hpart
        · exact htodo part (List.mem_cons_of_mem _ hpart)
  | enter _ name _ _ _ _ ih =>
      exact ih (name.proper_append (htodo _ (List.mem_cons_self ..)) hl)
        fun part hpart => htodo part (List.mem_cons_of_mem _ hpart)

end Tree

theorem Location.isAbsolute_path (l : Location) : l.path.isAbsolute = true :=
  rfl

/-- A proper location is read back from its path. -/
private theorem Location.steps_path {l : Location} (h : l.Proper) :
    l.path.steps = l := by
  have hvoid : l.filter (!Path.isVoid ·) = l :=
    List.filter_eq_self.2 fun name hname => by simp [(h name hname).2.1]
  have hsplit : Path.split l.path.bytes = [] :: Path.split (Path.unsplit l) :=
    Path.split_append_slash [] _
  rw [Path.steps, hsplit, List.filter_cons_of_neg (by decide)]
  by_cases hl : l = []
  · rw [hl]
    rfl
  · rw [Path.split_unsplit hl fun name hname => (h name hname).1, hvoid]

namespace Path

variable {base target p q : Path}

/-- The beginning and the steps of an absolute path. -/
theorem components_of_absolute (h : p.isAbsolute = true) :
    p.components = .root :: p.steps.map ofStep := by
  rw [components_eq, lead, if_pos h, List.singleton_append]

/-- A canonical path of an absolute path has no steps up. -/
theorem canonical_not_climbing {t : Tree} (habs : p.isAbsolute = true)
    (h : t.canonical p = .ok q) :
    q.isAbsolute = true ∧ Component.up ∉ q.components := by
  obtain ⟨-, -, l, rfl, hresolves⟩ := Tree.canonical_eq_ok_iff.1 h
  rw [if_pos habs] at hresolves
  have hproper : l.Proper := hresolves.arrives.proper
    (fun _ hname => absurd hname List.not_mem_nil)
    fun _ => Tree.slash_not_mem_of_mem_parts
  refine ⟨l.isAbsolute_path, ?_⟩
  rw [components_of_absolute l.isAbsolute_path, Location.steps_path hproper]
  intro hup
  rcases List.mem_cons.1 hup with hup | hup
  · cases hup
  · obtain ⟨name, hname, hstep⟩ := List.mem_map.1 hup
    rw [ofStep, if_neg (hproper name hname).2.2] at hstep
    cases hstep

-- ================================================== from one path to another

section Way

variable {b c : Component} {bs cs rest : List Component}

/-- What is left of the base has to be left by steps up. -/
theorem up_mem_of_wayFrom (hb : b ≠ .here)
    (h : wayFrom (b :: bs) cs = some rest) : .up ∈ rest := by
  cases cs with
  | nil =>
      obtain ⟨more, -, rfl⟩ : ∃ more, wayFrom bs [] = some more
          ∧ .up :: more = rest := by
        simpa [wayFrom] using h
      exact List.mem_cons_self ..
  | cons c cs =>
      cases b with
      | here => exact absurd rfl hb
      | up => simp [wayFrom] at h
      | root | name =>
          obtain rfl : .up :: bs.map (fun _ => .up) ++ c :: cs = rest := by
            simpa [wayFrom] using h
          simp

/-- A way from one place to another consists of steps up and of what is left of
the target. -/
theorem mem_wayFrom (h : wayFrom bs cs = some rest) (hc : c ∈ rest) :
    c = .up ∨ c ∈ cs := by
  induction bs, cs using wayFrom.induct generalizing rest with
  | case1 cs =>
      rw [wayFrom] at h
      exact .inr (Option.some.inj h ▸ hc)
  | case2 b bs ih =>
      obtain ⟨more, hmore, rfl⟩ : ∃ more, wayFrom bs [] = some more
          ∧ .up :: more = rest := by
        simpa [wayFrom] using h
      rcases List.mem_cons.1 hc with rfl | hc
      · exact .inl rfl
      · exact ih hmore hc
  | case3 bs first cs ih =>
      obtain ⟨more, hmore, rfl⟩ : ∃ more, wayFrom bs cs = some more
          ∧ first :: more = rest := by
        simpa [wayFrom] using h
      rcases List.mem_cons.1 hc with rfl | hc
      · exact .inr (List.mem_cons_self ..)
      · exact (ih hmore hc).imp id (List.mem_cons_of_mem _)
  | case4 bs first cs => simp [wayFrom] at h
  -- from here on the way parts: up from every component left, and down again
  | case5 b bs first cs hhere hup =>
      have heq : wayFrom (b :: bs) (first :: cs)
          = some (.up :: bs.map (fun _ => .up) ++ first :: cs) := by
        cases b with
        | here => exact absurd rfl hhere
        | up => exact absurd rfl hup
        | root | name => rfl
      obtain rfl := Option.some.inj (heq.symm.trans h)
      rcases List.mem_append.1 hc with hc | hc
      · rcases List.mem_cons.1 hc with rfl | hc
        · exact .inl rfl
        · exact .inl (List.mem_map.1 hc).choose_spec.2.symm
      · exact .inr hc

/-- A way consists of steps up and of steps of the target. -/
private theorem mem_way (h : way bs cs = some rest) (hc : c ∈ rest) :
    c = .up ∨ c ∈ cs := by
  induction bs, cs using way.induct with
  | case1 bs first cs ih =>
      rw [way, if_pos rfl] at h
      exact (ih h).imp id (List.mem_cons_of_mem _)
  | case2 b bs first cs hne =>
      rw [way, if_neg hne] at h
      exact mem_wayFrom h hc
  | case3 bs cs hshape =>
      rw [way] at h
      · exact mem_wayFrom h hc
      · exact hshape

/-- The way has no step up if and only if it goes on from the base. -/
theorem way_eq_some_iff (hb : .here ∉ bs) :
    way bs cs = some rest ∧ .up ∉ rest ↔ cs = bs ++ rest ∧ .up ∉ rest := by
  refine and_congr_left fun hup => ?_
  induction bs generalizing cs with
  | nil => simp [way, wayFrom]
  | cons b bs ih =>
      have hhere : b ≠ .here := (List.ne_of_not_mem_cons hb).symm
      have hbs : .here ∉ bs := List.not_mem_of_not_mem_cons hb
      cases cs with
      | nil =>
          refine iff_of_false (fun hway => hup ?_) (by simp)
          exact up_mem_of_wayFrom hhere hway
      | cons c cs =>
          by_cases heq : c = b
          · rw [way, if_pos heq, ih hbs, heq, List.cons_append,
              List.cons_inj_right]
          · rw [way, if_neg heq]
            refine iff_of_false (fun hway => hup ?_) (fun happ =>
              heq (List.cons.inj happ).1)
            exact up_mem_of_wayFrom hhere hway

end Way

private theorem isStep_up : IsStep .up :=
  ⟨[dot, dot], by decide, by decide, rfl⟩

/-- The top and the place where one stands are no steps. -/
theorem not_isStep {c : Component} (h : c = .root ∨ c = .here) :
    ¬IsStep c := by
  rintro ⟨part, -, -, hc⟩
  have hpart := part?_ofStep part
  rw [← hc] at hpart
  rcases h with rfl | rfl <;> cases hpart

/-- A path put together from steps has these steps. -/
private theorem map_steps_ofComponents {cs : List Component}
    (h : ∀ c ∈ cs, IsStep c) : (ofComponents cs).steps.map ofStep = cs := by
  have hcs := components_ofComponents h
  rw [components_eq, lead] at hcs
  split at hcs
  · exact absurd (h .root (hcs ▸ List.mem_cons_self ..))
      (not_isStep (.inl rfl))
  · split at hcs
    · exact absurd (h .here (hcs ▸ List.mem_cons_self ..))
        (not_isStep (.inr rfl))
    · exact hcs

/-- A path put together from steps is relative. -/
theorem isAbsolute_ofComponents {cs : List Component}
    (h : ∀ c ∈ cs, IsStep c) : (ofComponents cs).isAbsolute = false := by
  refine Bool.eq_false_iff.2 fun habs => not_isStep (.inl rfl) (h .root ?_)
  rwa [isAbsolute_iff_root_mem, components_ofComponents h] at habs

/-- Between absolute paths there is a way without steps up if and only if
the components of the second go on from those of the first. -/
theorem difference?_eq_some_iff (hbase : base.isAbsolute = true)
    (htarget : target.isAbsolute = true) :
    base.difference? target = some q ∧ q.climbs = false
      ↔ ∃ rest, target.components = base.components ++ rest ∧ .up ∉ rest
        ∧ ofComponents rest = q := by
  have hhere : .here ∉ base.components := by
    rw [components_of_absolute hbase]
    intro hmem
    rcases List.mem_cons.1 hmem with hmem | hmem
    · cases hmem
    · exact not_isStep (.inr rfl) (isStep_of_mem_map hmem)
  -- both begin at the top, and what is left of the way are steps
  have hstep {rest : List Component}
      (h : way base.components target.components = some rest) :
      ∀ c ∈ rest, IsStep c := by
    intro c hc
    rw [components_of_absolute hbase, components_of_absolute htarget, way,
      if_pos rfl] at h
    rcases mem_way h hc with rfl | hc
    · exact isStep_up
    · exact isStep_of_mem_map (p := target) hc
  rw [difference?, if_pos (by rw [hbase, htarget]; rfl),
    Option.map_eq_some_iff]
  constructor
  · rintro ⟨⟨rest, hway, rfl⟩, hclimbs⟩
    have hup : .up ∉ rest := by
      simpa [climbs, components_ofComponents (hstep hway)] using hclimbs
    exact ⟨rest, ((way_eq_some_iff hhere).1 ⟨hway, hup⟩).1, hup, rfl⟩
  · rintro ⟨rest, htarget, hup, rfl⟩
    have hway := ((way_eq_some_iff hhere).2 ⟨htarget, hup⟩).1
    refine ⟨⟨rest, hway, rfl⟩, ?_⟩
    simpa [climbs, components_ofComponents (hstep hway)] using hup

end Path

namespace Workspace

open CopyrightNotice.Path

variable {t : Tree} {root dir p r : Path}

-- ====================================================== the target directory

/-- What stands for the root is spelled by a dot. -/
private theorem orRoot_nonempty (p : Path) : (orRoot p).bytes ≠ [] := by
  unfold orRoot
  split
  · decide
  · assumption

/-- To spell the root keeps a path absolute or relative. -/
theorem isAbsolute_orRoot (p : Path) :
    (orRoot p).isAbsolute = p.isAbsolute := by
  unfold orRoot
  split
  · rename_i hp
    rw [isAbsolute, isAbsolute, hp]
    rfl
  · rfl

/-- To spell the root adds no step. -/
private theorem steps_orRoot (p : Path) : (orRoot p).steps = p.steps := by
  unfold orRoot
  split
  · rename_i hp
    rw [steps, steps, hp]
    rfl
  · rfl

/-- To spell the root adds no step up. -/
private theorem climbs_orRoot (p : Path) : (orRoot p).climbs = p.climbs := by
  unfold orRoot
  split
  · rename_i hp
    rw [climbs, climbs, components_eq_nil_iff.2 hp]
    rfl
  · rfl

/-- A path that has a canonical one is compared by it. -/
theorem canonicalOr_of_ok {q : Path} (h : t.canonical p = .ok q) :
    canonicalOr t p = q := by
  rw [canonicalOr, h]

/-- The path of what lies too deep stays as it is. -/
theorem canonicalOr_of_deep {l : Location} (hp : p.isAbsolute = true)
    (hl : t.locate .target p = .ok l)
    (hdeep : Tree.pathLimit ≤ l.path.bytes.length) : canonicalOr t p = p := by
  obtain ⟨fault, hfault⟩ := Tree.canonical_of_deep hp hl hdeep
  rw [canonicalOr, hfault]

/-- What an absolute path is compared by is absolute. -/
theorem isAbsolute_canonicalOr (h : p.isAbsolute = true) :
    (canonicalOr t p).isAbsolute = true := by
  unfold canonicalOr
  split
  · rename_i q hq
    exact (canonical_not_climbing h hq).1
  · exact h

/-- A relative directory is taken as it is, unless it has a step up. -/
theorem relativeDir_of_relative (hdir : dir.isAbsolute = false) :
    relativeDir t root dir
      = if dir.climbs then .error (.leaves dir) else .ok (orRoot dir) := by
  rw [relativeDir, if_neg (by simp [hdir])]

/-- An absolute directory is accepted if its components go on from those of
the root without a step up. -/
theorem relativeDir_of_absolute (hroot : root.isAbsolute = true)
    (hdir : dir.isAbsolute = true) :
    relativeDir t root dir = .ok r
      ↔ ∃ rest, (canonicalOr t dir).components
          = (canonicalOr t root).components ++ rest
        ∧ .up ∉ rest
        ∧ orRoot (ofComponents rest) = r := by
  have hways (q : Path) := difference?_eq_some_iff (q := q)
    (isAbsolute_canonicalOr (t := t) hroot)
    (isAbsolute_canonicalOr (t := t) hdir)
  rw [relativeDir, if_pos hdir]
  constructor
  · intro h
    dsimp only at h
    split at h
    · rename_i q hq
      split at h
      · cases h
      · rename_i hclimbs
        obtain ⟨rest, hrest, hup, rfl⟩ :=
          (hways q).1 ⟨hq, by simpa using hclimbs⟩
        exact ⟨rest, hrest, hup, Except.ok.inj h⟩
    · cases h
  · rintro ⟨rest, hrest, hup, rfl⟩
    obtain ⟨hq, hclimbs⟩ := (hways _).2 ⟨rest, hrest, hup, rfl⟩
    simp only [hq, hclimbs, Bool.false_eq_true, if_false]

/-- What stands behind the components of an absolute path are steps. -/
theorem isStep_of_components {front rest : List Component}
    (hp : p.isAbsolute = true) (hfront : front ≠ [])
    (h : p.components = front ++ rest) : ∀ c ∈ rest, IsStep c := by
  obtain ⟨first, front, rfl⟩ := List.exists_cons_of_ne_nil hfront
  rw [components_of_absolute hp] at h
  exact fun c hc =>
    isStep_of_mem_map (p := p) ((List.cons.inj h).2
      ▸ List.mem_append_right _ hc)

theorem components_ne_nil (hp : p.isAbsolute = true) : p.components ≠ [] := by
  simp [components_of_absolute hp]

/-- What is accepted is relative and has no step up. -/
private theorem relative_of_relativeDir (hroot : root.isAbsolute = true)
    (h : relativeDir t root dir = .ok r) :
    r.bytes ≠ [] ∧ r.isAbsolute = false ∧ Component.up ∉ r.components := by
  suffices hfrom : ∃ p, orRoot p = r ∧ p.isAbsolute = false
      ∧ p.climbs = false by
    obtain ⟨p, rfl, hrel, hclimbs⟩ := hfrom
    refine ⟨orRoot_nonempty p, (isAbsolute_orRoot p).trans hrel, ?_⟩
    simpa [climbs] using (climbs_orRoot p).trans hclimbs
  cases hdir : dir.isAbsolute with
  | true =>
      obtain ⟨rest, hrest, hup, hr⟩ := (relativeDir_of_absolute hroot hdir).1 h
      have hsteps := isStep_of_components (isAbsolute_canonicalOr hdir)
        (components_ne_nil (isAbsolute_canonicalOr hroot)) hrest
      refine ⟨ofComponents rest, hr, isAbsolute_ofComponents hsteps, ?_⟩
      simpa [climbs, components_ofComponents hsteps] using hup
  | false =>
      rw [relativeDir_of_relative hdir] at h
      split at h
      · cases h
      · rename_i hclimbs
        exact ⟨dir, Except.ok.inj h, hdir, by simpa using hclimbs⟩

/-- Between canonical paths no step up can be left, so it is enough that the
components of the root come first. -/
private theorem relativeDir_of_canonical {R A : Path}
    (hroot : root.isAbsolute = true) (hdir : dir.isAbsolute = true)
    (hR : t.canonical root = .ok R) (hA : t.canonical dir = .ok A) :
    relativeDir t root dir = .ok r
      ↔ ∃ rest, A.components = R.components ++ rest
        ∧ orRoot (ofComponents rest) = r := by
  rw [relativeDir_of_absolute hroot hdir, canonicalOr_of_ok hR,
    canonicalOr_of_ok hA]
  refine exists_congr fun rest => and_congr_right fun hrest =>
    and_iff_right fun hup => ?_
  exact (canonical_not_climbing hdir hA).2 (hrest
    ▸ List.mem_append_right _ hup)

/-- The root leads to a directory by the path that is given for it. -/
private theorem components_join_orRoot {R A : Path} {rest : List Component}
    (hR : R.isAbsolute = true) (hA : A.isAbsolute = true)
    (hrest : A.components = R.components ++ rest) :
    (R.join (orRoot (ofComponents rest))).components = A.components := by
  have hRnil := components_ne_nil hR
  have hsteps := isStep_of_components hA hRnil hrest
  have hrel := (isAbsolute_orRoot _).trans (isAbsolute_ofComponents hsteps)
  rw [components_join (fun hnil => hRnil (components_eq_nil_iff.2 hnil)) hrel,
    steps_orRoot, map_steps_ofComponents hsteps, hrest]

/-- What is accepted leads from the root to the directory. -/
theorem joined_of_relativeDir (hroot : root.isAbsolute = true)
    (hdir : dir.isAbsolute = true) (h : relativeDir t root dir = .ok r) :
    ((canonicalOr t root).join r).components = (canonicalOr t dir).components
      ∧ ((canonicalOr t dir).components = (canonicalOr t root).components →
        r = Path.ofString ".") := by
  obtain ⟨rest, hrest, -, rfl⟩ := (relativeDir_of_absolute hroot hdir).1 h
  refine ⟨components_join_orRoot (isAbsolute_canonicalOr hroot)
    (isAbsolute_canonicalOr hdir) hrest, fun heq => ?_⟩
  obtain rfl : rest = [] := by simpa [heq] using hrest
  rfl

/-- A relative directory is refused exactly for a step up. -/
private theorem refused_iff_of_relative (hdir : dir.isAbsolute = false) :
    (∃ fault, relativeDir t root dir = .error fault)
      ↔ Component.up ∈ dir.components := by
  have hclimbs : dir.climbs = true
    ↔ Component.up ∈ dir.components := by simp [climbs]
  rw [relativeDir_of_relative hdir, ← hclimbs]
  split <;> simp [*]

/-- The bounds that a target directory is kept in. -/
structure Confined (t : Tree) (root dir : Path) : Prop where
  /-- It is given by a relative path without steps up. -/
  relative : ∀ r, relativeDir t root dir = .ok r →
    r.bytes ≠ [] ∧ r.isAbsolute = false ∧ Component.up ∉ r.components
  /-- An absolute one is accepted if and only if its components, links
  followed if they can be, go on from those of the root without a step up. -/
  accepted : dir.isAbsolute = true →
    ((∃ r, relativeDir t root dir = .ok r)
      ↔ ∃ rest, Component.up ∉ rest
        ∧ (canonicalOr t dir).components
          = (canonicalOr t root).components ++ rest)
  /-- The root leads to it by the path that is given for it. -/
  joined : dir.isAbsolute = true → ∀ r, relativeDir t root dir = .ok r →
    ((canonicalOr t root).join r).components = (canonicalOr t dir).components
      ∧ ((canonicalOr t dir).components = (canonicalOr t root).components →
        r = Path.ofString ".")
  /-- Between canonical paths the components of the root have to come first,
  and that is enough. -/
  inside : ∀ R A, dir.isAbsolute = true → t.canonical root = .ok R →
    t.canonical dir = .ok A →
    ((∃ r, relativeDir t root dir = .ok r) ↔ R.components <+: A.components)
      ∧ ∀ r, relativeDir t root dir = .ok r →
        (R.join r).components = A.components
          ∧ (A.components = R.components → r = Path.ofString ".")
  /-- A canonical path is that of the location which is led to. What exists
  has one if no entry lies too deep; what itself lies too deep has none, and
  is compared as it is spelled. -/
  existing : ∀ p l, t.locate .target p = .ok l →
    (∀ A, t.canonical p = .ok A → A = l.path)
      ∧ (t.Shallow → t.canonical p = .ok l.path)
      ∧ (p.isAbsolute = true → Tree.pathLimit ≤ l.path.bytes.length →
        canonicalOr t p = p)
  /-- A relative one is refused if and only if it has a step up. -/
  refused : dir.isAbsolute = false →
    ((∃ fault, relativeDir t root dir = .error fault)
      ↔ Component.up ∈ dir.components)

/-- The directory that a run looks at is kept in the repository, as far as
links can be followed to where they lead. -/
theorem relativeDir_confined (habs : root.isAbsolute = true) (dir : Path) :
    Confined t root dir where
  relative _ := relative_of_relativeDir habs
  accepted hdir := by
    constructor
    · rintro ⟨r, hr⟩
      obtain ⟨rest, hrest, hup, -⟩ := (relativeDir_of_absolute habs hdir).1 hr
      exact ⟨rest, hup, hrest⟩
    · rintro ⟨rest, hup, hrest⟩
      exact ⟨_, (relativeDir_of_absolute habs hdir).2 ⟨rest, hrest, hup, rfl⟩⟩
  joined hdir _ := joined_of_relativeDir habs hdir
  inside R A hdir hR hA := by
    have hiff (r : Path) := relativeDir_of_canonical (r := r) habs hdir hR hA
    refine ⟨⟨?_, ?_⟩, fun r hr => ?_⟩
    · rintro ⟨r, hr⟩
      obtain ⟨rest, hrest, -⟩ := (hiff r).1 hr
      exact ⟨rest, hrest.symm⟩
    · rintro ⟨rest, hrest⟩
      exact ⟨_, (hiff _).2 ⟨rest, hrest.symm, rfl⟩⟩
    · have hjoined := joined_of_relativeDir habs hdir hr
      rwa [canonicalOr_of_ok hR, canonicalOr_of_ok hA] at hjoined
  existing _ _ hl :=
    ⟨fun _ => Tree.canonical_eq_of_locate hl,
      fun hshallow => Tree.canonical_of_shallow hshallow hl,
      fun hp => canonicalOr_of_deep hp hl⟩
  refused := refused_iff_of_relative

/-- A repository that is reached by a link, with a link into it beside it and
another directory whose name begins with that of the repository. -/
def linkedCheckout : Tree :=
  { entries := [
      ((ofString "repo").steps, .directory),
      ((ofString "repo/src").steps, .directory),
      ((ofString "repo2").steps, .directory),
      ((ofString "r").steps, .link (ofString "/repo")),
      ((ofString "work").steps, .link (ofString "r/src"))] }

theorem relativeDir_of_link :
    (∃ r, relativeDir linkedCheckout (ofString "/r") (ofString "/work") = .ok r
        ∧ ((ofString "/repo").join r).components
          = (ofString "/repo/src").components)
      ∧ (¬∃ r, relativeDir linkedCheckout (ofString "/r") (ofString "/repo2")
        = .ok r)
      ∧ ∃ fault, relativeDir linkedCheckout (ofString "/r") (ofString "src/..")
        = .error fault := by
  have hconfined (dir : Path) : Confined linkedCheckout (ofString "/r") dir :=
    relativeDir_confined (by decide) dir
  have hshallow : linkedCheckout.Shallow := Tree.shallow_of_entries (by decide)
  have hexisting (p : Path) (l : Location)
      (hl : linkedCheckout.locateWithin .target 8 p = some (.ok l)) :
      linkedCheckout.canonical p = .ok l.path :=
    ((hconfined p).existing p l (Tree.locate_eq_of_locateWithin 8 hl)).2.1
      hshallow
  have hroot := hexisting (ofString "/r") (ofString "repo").steps rfl
  have hwork := hexisting (ofString "/work") (ofString "repo/src").steps rfl
  have hother := hexisting (ofString "/repo2") (ofString "repo2").steps rfl
  obtain ⟨hworkIff, hworkJoin⟩ :=
    (hconfined (ofString "/work")).inside _ _ (by decide) hroot hwork
  obtain ⟨hotherIff, -⟩ :=
    (hconfined (ofString "/repo2")).inside _ _ (by decide) hroot hother
  obtain ⟨r, hr⟩ := hworkIff.2 (by decide)
  refine ⟨⟨r, hr, (hworkJoin r hr).1⟩, ?_, ?_⟩
  · exact (not_congr hotherIff).2 (by decide)
  · exact ((hconfined (ofString "src/..")).refused (by decide)).2 (by decide)

-- ====================================================== a link out of sight

/-- The longest name that an entry can have. -/
def longName : Bytes := List.replicate Tree.maxName 110

/-- Directories of this name in each other. -/
def nested : Nat → List (Location × Entry)
  | 0 => []
  | n + 1 => (List.replicate (n + 1) longName, .directory) :: nested n

/-- Each of the directories in each other is found. -/
private theorem lookup_nested {n k : Nat} (h : k < n) :
    (nested n).lookup (List.replicate (k + 1) longName) = some .directory := by
  induction n with
  | zero => cases h
  | succ n ih =>
      by_cases hk : k = n
      · rw [hk, nested, List.lookup_cons_self]
      · have hne : List.replicate (k + 1) longName
            ≠ List.replicate (n + 1) longName :=
          fun heq => hk (by simpa using congrArg List.length heq)
        rw [nested, List.lookup_cons, beq_false_of_ne hne]
        exact ih (by omega)

/-- A repository with a link that leads out of it, by way of another link, to
a directory that lies too deep. -/
def deepCheckout : Tree :=
  { entries := ((ofString "r").steps, .directory)
      :: ((ofString "r/l").steps,
        .link (Location.path
          ((ofString "a").steps ++ List.replicate 8 longName)))
      :: ((ofString "a").steps,
        .link (Location.path (List.replicate 8 longName)))
      :: nested 16 }

/-- Each of them is found in the whole tree. -/
private theorem entry?_deepCheckout {k : Nat} (h : k < 16) :
    deepCheckout.entry? (List.replicate (k + 1) longName)
      = some .directory := by
  have hne {short : Bytes} (hshort : short.length = 1) (more : List Bytes) :
      (List.replicate (k + 1) longName == short :: more) = false := by
    refine beq_false_of_ne fun heq => ?_
    have hlength := congrArg List.length (List.cons.inj heq).1
    rw [hshort, longName, List.length_replicate] at hlength
    cases hlength
  have hr : (ofString "r").steps = [[114]] := by decide
  have hl : (ofString "r/l").steps = [[114], [108]] := by decide
  have ha : (ofString "a").steps = [[97]] := by decide
  rw [Tree.entry?, if_neg (by simp), deepCheckout, hr, hl, ha]
  -- the three other entries have short names at the top
  rw [List.lookup_cons, hne rfl, List.lookup_cons, hne rfl, List.lookup_cons,
    hne rfl]
  exact lookup_nested h

/-- The walk goes down the directories in each other. -/
private theorem arrives_deepCheckout {links i j : Nat} (h : i + j ≤ 16) :
    Tree.Arrives deepCheckout .target links (List.replicate i longName)
      (List.replicate j longName) (List.replicate (i + j) longName) := by
  induction j generalizing i with
  | zero => exact .done
  | succ j ih =>
      have hdir : deepCheckout.isDirectory (List.replicate i longName)
          = true := by
        cases i with
        | zero => rfl
        | succ i =>
            rw [Tree.isDirectory, entry?_deepCheckout (by omega)]
            rfl
      have hname : Tree.Named longName :=
        ⟨by decide +kernel, by decide +kernel, by decide +kernel⟩
      have hnext : List.replicate i longName ++ [longName]
          = List.replicate (i + 1) longName := List.replicate_succ'.symm
      have hmore := ih (i := i + 1) (by omega)
      rw [Nat.succ_add_eq_add_succ, ← hnext] at hmore
      exact .enter hdir hname (by simp)
        (hnext ▸ entry?_deepCheckout (by omega)) (by simp) hmore

/-- By two links the walk comes to the last of these directories. -/
private theorem locate_deepCheckout :
    deepCheckout.locate .target (ofString "/r/l")
      = .ok (List.replicate 16 longName) := by
  have hparts : Tree.parts (ofString "/r/l") = [[114], [108]] := by decide
  have hfirst : Tree.parts (Location.path
      ((ofString "a").steps ++ List.replicate 8 longName))
        = [97] :: List.replicate 8 longName := by decide +kernel
  have hsecond : Tree.parts (Location.path (List.replicate 8 longName))
      = List.replicate 8 longName := by decide +kernel
  have hr : deepCheckout.entry? ([] ++ [[114]]) = some .directory := rfl
  have hl : deepCheckout.entry? ([] ++ [[114]] ++ [[108]])
      = some (.link (Location.path
        ((ofString "a").steps ++ List.replicate 8 longName))) := rfl
  have ha : deepCheckout.entry? ([] ++ [[97]])
      = some (.link (Location.path (List.replicate 8 longName))) := rfl
  have hname (b : UInt8) (hb : b ≠ Path.dot) : Tree.Named [b] :=
    ⟨by simp [isVoid, hb], by simp, by simp [Tree.maxName]⟩
  have hdeep := @arrives_deepCheckout 38 0 16 (by decide)
  refine Tree.locate_eq_ok_iff.2 ⟨by decide, by decide, by decide, ?_⟩
  rw [if_pos (by decide), hparts]
  refine .enter rfl (hname _ (by decide)) (by simp) hr (by simp) ?_
  refine .follow rfl (hname _ (by decide)) (by simp) (by simp) hl ?_
  rw [if_pos (Location.isAbsolute_path _), hfirst, List.append_nil]
  refine .follow rfl (hname _ (by decide)) (by simp) (by simp) ha ?_
  rw [if_pos (Location.isAbsolute_path _), hsecond,
    List.replicate_append_replicate]
  exact hdeep

/-- The root is found where it is. -/
private theorem resolves_deepCheckout :
    Tree.Resolves deepCheckout Tree.maxLinks [] [[114]] [[114]] := by
  have hr : deepCheckout.entry? ([] ++ [[114]]) = some .directory := rfl
  exact .enter rfl ⟨by decide, by decide, by decide⟩ (by decide) hr (by simp)
    (by decide) .done

/-- The link in the repository is accepted by its name. -/
private theorem relativeDir_deepCheckout :
    relativeDir deepCheckout (ofString "/r") (ofString "/r/l")
      = .ok (ofString "l") := by
  have hparts : Tree.parts (ofString "/r") = [[114]] := by decide
  have hroot : deepCheckout.canonical (ofString "/r")
      = .ok (ofString "/r") := by
    refine Tree.canonical_eq_ok_iff.2
      ⟨by decide, by decide, [[114]], by decide, ?_⟩
    rw [if_pos (by decide), hparts]
    exact resolves_deepCheckout
  have hraw : canonicalOr deepCheckout (ofString "/r/l") = ofString "/r/l" :=
    canonicalOr_of_deep (by decide) locate_deepCheckout (by decide +kernel)
  refine (relativeDir_of_absolute (by decide) (by decide)).2
    ⟨[.name [108]], ?_, by decide, by decide⟩
  rw [hraw, canonicalOr_of_ok hroot]
  decide

/-- It is not enough that a directory exists: what the link in the repository
leads to lies outside, and the link is accepted. -/
theorem not_forall_accepted_iff_inside :
    ¬∀ (t : Tree) (root dir : Path) (b l : Location), root.isAbsolute = true →
      dir.isAbsolute = true → t.locate .target root = .ok b →
      t.locate .target dir = .ok l →
      ((∃ r, relativeDir t root dir = .ok r)
        ↔ b.path.components <+: l.path.components) := by
  intro h
  have hparts : Tree.parts (ofString "/r") = [[114]] := by decide
  have hroot : deepCheckout.locate .target (ofString "/r") = .ok [[114]] := by
    refine Tree.locate_eq_ok_iff.2 ⟨by decide, by decide, by decide, ?_⟩
    rw [if_pos (by decide), hparts]
    exact resolves_deepCheckout.arrives
  have hinside := (h deepCheckout (ofString "/r") (ofString "/r/l") _ _
    (by decide) (by decide) hroot locate_deepCheckout).1
      ⟨_, relativeDir_deepCheckout⟩
  exact absurd hinside (by decide +kernel)

end Workspace

end CopyrightNotice
