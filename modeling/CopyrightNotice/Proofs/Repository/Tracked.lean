/-
What a listing holds, whatever the order of the index.

A listing goes strictly upwards in the order of paths, so it is told by what
stands in it. Of the spellings of one path that is the first one in the index
(`mem_listing_iff`): sorting leaves the spellings of a path in their order,
and dropping repeats keeps the first. As paths compare by their components,
that some spelling is listed does not depend on the order of the index, nor
on the spelling of the directory (`exists_mem_listing_iff`).
-/
import CopyrightNotice.Proofs.Command.Summary
import CopyrightNotice.Proofs.Path.Assembly
import CopyrightNotice.Proofs.Repository.Listing
import CopyrightNotice.Proofs.Run.Saying
import Mathlib.Data.List.Sort

namespace CopyrightNotice

-- ================================================================ order

section Orders

variable {α : Type} (cmp : α → α → Ordering) [Std.OrientedCmp cmp]

/-- What comes before another does not come after it. -/
theorem not_lt_of_lt {a b : α} (h : cmp a b = .lt) : cmp b a ≠ .lt := by
  have hswap : cmp b a = (cmp a b).swap := Std.OrientedCmp.eq_swap
  rw [hswap, h]
  decide

instance irrefl_lt : Std.Irrefl (cmp · · = .lt) where
  irrefl _ h := not_lt_of_lt cmp h h

instance antisymm_lt : Std.Antisymm (cmp · · = .lt) where
  antisymm _ _ h h' := absurd h' (not_lt_of_lt cmp h)

end Orders

namespace Path

variable {p q r : Path}

theorem sameAs_self (p : Path) : p.sameAs p = true := beq_self_eq_true _

theorem sameAs_comm : p.sameAs q = q.sameAs p := BEq.comm

theorem sameAs_congr (h : p.sameAs q = true) (r : Path) :
    r.sameAs p = r.sameAs q := by
  rw [sameAs, sameAs, eq_of_beq h]

end Path

namespace Staged

variable {entries other : List Staged} {dir : Path} {paths : List Path}
  {p q : Path}

-- ============================================================== repeats

/-- Sorting leaves the spellings of one path in their order. -/
private theorem filter_mergeSort (paths : List Path) (q : Path) :
    (paths.mergeSort Path.precedes).filter (·.sameAs q)
      = paths.filter (·.sameAs q) := by
  have hlevel : (paths.filter (·.sameAs q)).Pairwise fun p r => p.precedes r
      = true := by
    refine List.pairwise_of_forall_mem_list fun p hp r hr => ?_
    have hsame : p.sameAs r = true := by
      rw [← Path.sameAs_congr (Path.sameAs_comm.trans
        (List.mem_filter.1 hr).2)]
      exact (List.mem_filter.1 hp).2
    rw [Path.precedes, Path.compare_eq_iff.2 hsame]
    rfl
  have hsub :=
    List.sublist_mergeSort Path.precedes_trans Path.precedes_total hlevel
      List.filter_sublist
  have hfilter := hsub.filter (·.sameAs q)
  rw [List.filter_filter] at hfilter
  simp only [Bool.and_self] at hfilter
  exact (hfilter.eq_of_length
    ((List.mergeSort_perm paths Path.precedes).filter _).length_eq.symm).symm

/-- Of the spellings of one path in a sorted list the first one stays. -/
theorem mem_dropRepeats_iff
    (h : paths.Pairwise fun p q => p.precedes q = true) :
    q ∈ dropRepeats paths ↔ paths.find? (·.sameAs q) = some q := by
  fun_induction dropRepeats paths with
  | case1 => simp
  | case2 p =>
      cases hp : p.sameAs q with
      | true => simp [hp, eq_comm]
      | false =>
          have hne : q ≠ p := by
            rintro rfl
            rw [Path.sameAs_self] at hp
            cases hp
          simp [hp, hne]
  | case3 p r rest hsame ih =>
      rw [ih (h.sublist (List.Sublist.cons_cons _
        (List.sublist_cons_self ..)))]
      have hpr : p.sameAs q = r.sameAs q := by
        rw [Path.sameAs_comm, Path.sameAs_congr hsame, Path.sameAs_comm]
      cases hq : p.sameAs q with
      | true => simp only [List.find?_cons, hq]
      | false => simp only [List.find?_cons, hq, ← hpr]
  | case4 p r rest hne ih =>
      have hrest := ih (List.pairwise_cons.1 h).2
      have hbehind := dropRepeats_pairwise h
      rw [dropRepeats, if_neg (by simpa using hne)] at hbehind
      rw [List.mem_cons, List.find?_cons]
      cases hpq : p.sameAs q with
      | true =>
          -- what stands behind `p` is no spelling of it
          have hother : q ∉ dropRepeats (r :: rest) := by
            intro hq
            have hlt := (List.pairwise_cons.1 hbehind).1 q hq
            rw [Path.compare_eq_iff.2 hpq] at hlt
            cases hlt
          simp [hother, eq_comm]
      | false =>
          have hne' : q ≠ p := by
            rintro rfl
            rw [Path.sameAs_self] at hpq
            cases hpq
          simp only [hne', false_or, hrest]

-- ============================================================== listing

/-- The components that a path below a directory begins with. -/
def below (dir : Path) : List Component := dir.components.filter (· != .here)

/-- The paths of the files in an index that are at or below a directory, in
the order of the index. -/
def filesBelow (entries : List Staged) (dir : Path) : List Path :=
  ((entries.filter fun e => e.isFile && Utf8.isText e.path).map
      (Path.mk ·.path)).filter
    fun p => (below dir).isPrefixOf p.components

/-- A listing has the files below the directory, in order and without
repeats. -/
theorem listing_eq (entries : List Staged) (dir : Path) :
    listing entries dir
      = dropRepeats ((filesBelow entries dir).mergeSort Path.precedes) := by
  unfold listing filesBelow below
  simp only [Path.startsWith, plainDirectory, Path.components_withoutDots]

/-- Of the spellings of one path the first one in the index is listed. -/
theorem mem_listing_iff :
    q ∈ listing entries dir
      ↔ (filesBelow entries dir).find? (·.sameAs q) = some q := by
  rw [listing_eq, mem_dropRepeats_iff
      (List.pairwise_mergeSort Path.precedes_trans Path.precedes_total _),
    ← List.head?_filter, filter_mergeSort, List.head?_filter]

/-- A file below the directory is an entry with its mode, its text and its
first components. -/
theorem mem_filesBelow_iff :
    p ∈ filesBelow entries dir
      ↔ ∃ e ∈ entries, Path.mk e.path = p
        ∧ e.mode ≠ submodule
        ∧ Utf8.isText e.path = true
        ∧ below dir <+: p.components := by
  simp only [filesBelow, List.mem_filter, List.mem_map, isFile,
    Bool.and_eq_true, bne_iff_ne, List.isPrefixOf_iff_prefix]
  constructor
  · rintro ⟨⟨e, ⟨he, hmode, htext⟩, rfl⟩, hbelow⟩
    exact ⟨e, he, rfl, hmode, htext, hbelow⟩
  · rintro ⟨e, he, rfl, hmode, htext, hbelow⟩
    exact ⟨⟨e, ⟨he, hmode, htext⟩, rfl⟩, hbelow⟩

/-- Some spelling of a path is listed if some spelling of it is a file below
the directory. -/
theorem exists_mem_listing_iff : (∃ q ∈ listing entries dir, q.sameAs p = true)
    ↔ ∃ q ∈ filesBelow entries dir, q.sameAs p = true := by
  constructor
  · rintro ⟨q, hq, hsame⟩
    exact ⟨q, List.mem_of_find?_eq_some (mem_listing_iff.1 hq), hsame⟩
  · rintro ⟨q, hq, hsame⟩
    obtain ⟨first, hfirst⟩ := Option.isSome_iff_exists.1
      (List.find?_isSome.2 ⟨q, hq, hsame⟩ :
      ((filesBelow entries dir).find? (·.sameAs p)).isSome)
    have hfp : first.sameAs p = true := by simpa using List.find?_some hfirst
    refine ⟨first, mem_listing_iff.2 ?_, hfp⟩
    simpa only [Path.sameAs_congr hfp] using hfirst

/-- What a listing of the files at or below a directory is: it goes strictly
upwards, its paths are spelled as in the index, and a path is in it if some
entry of the index with that path is a file there. -/
structure IsListing (entries : List Staged) (dir : Path) (listed : List Path) :
    Prop where
  increasing : listed.Pairwise (Path.compare · · = .lt)
  spelled : ∀ q ∈ listed, ∃ e ∈ entries, e.path = q.bytes
  mem_iff : ∀ p, (∃ q ∈ listed, q.sameAs p = true) ↔
    ∃ e ∈ entries, (Path.mk e.path).sameAs p = true ∧ e.mode ≠ submodule
      ∧ Utf8.isText e.path = true ∧ below dir <+: p.components

/-- A listing is one, by the order of the paths. -/
theorem isListing_listing (entries : List Staged) (dir : Path) :
    IsListing entries dir (listing entries dir) where
  increasing := listing_pairwise entries dir
  spelled q hq := by
    obtain ⟨e, he, rfl, -⟩ :=
      mem_filesBelow_iff.1 (List.mem_of_find?_eq_some (mem_listing_iff.1 hq))
    exact ⟨e, he, rfl⟩
  mem_iff p := by
    rw [exists_mem_listing_iff]
    constructor
    · rintro ⟨q, hq, hsame⟩
      obtain ⟨e, he, rfl, hmode, htext, hbelow⟩ := mem_filesBelow_iff.1 hq
      exact ⟨e, he, hsame, hmode, htext, eq_of_beq hsame ▸ hbelow⟩
    · rintro ⟨e, he, hsame, hmode, htext, hbelow⟩
      exact ⟨_, mem_filesBelow_iff.2 ⟨e, he, rfl, hmode, htext,
          eq_of_beq hsame ▸ hbelow⟩, hsame⟩

namespace IsListing

variable {listed listed' : List Path}

/-- The order of an index does not matter to what is listed. -/
theorem exists_iff_of_perm (h : IsListing entries dir listed)
    (h' : IsListing other dir listed') (hperm : other.Perm entries)
    (p : Path) :
    (∃ q ∈ listed', q.sameAs p = true) ↔ ∃ q ∈ listed, q.sameAs p = true := by
  simp only [h.mem_iff, h'.mem_iff, hperm.mem_iff]

/-- Two listings of the same entries have the same components: they are two
sorted lists with the same members. -/
private theorem components_eq_of_perm (h : IsListing entries dir listed)
    (h' : IsListing other dir listed') (hperm : other.Perm entries) :
    listed'.map Path.components = listed.map Path.components := by
  have hmem (cs : List Component) {ps : List Path} :
      cs ∈ ps.map Path.components ↔ ∃ q ∈ ps, q.components = cs := List.mem_map
  refine List.Pairwise.eq_of_mem_iff
    (r := (compareLists Component.compare · · = .lt))
    (List.pairwise_map.2 h'.increasing) (List.pairwise_map.2 h.increasing)
    fun cs => ?_
  have hall := h.exists_iff_of_perm h' hperm
  simp only [Path.sameAs, beq_iff_eq] at hall
  rw [hmem, hmem]
  constructor
  · rintro ⟨p, hp, rfl⟩
    exact (hall p).1 ⟨p, hp, rfl⟩
  · rintro ⟨p, hp, rfl⟩
    exact (hall p).2 ⟨p, hp, rfl⟩

/-- If an index spells each path in one way, its order does not matter at
all. -/
private theorem eq_of_perm (h : IsListing entries dir listed)
    (h' : IsListing other dir listed') (hperm : other.Perm entries)
    (hone : ∀ d ∈ entries, ∀ e ∈ entries,
      (Path.mk d.path).sameAs (Path.mk e.path) = true → d.path = e.path) :
    listed' = listed := by
  have hspelled : ∀ p ∈ listed, ∀ q ∈ listed', q.sameAs p = true → q = p := by
    rintro ⟨p⟩ hp ⟨q⟩ hq hsame
    obtain ⟨d, hd, rfl⟩ := h.spelled _ hp
    obtain ⟨e, he, rfl⟩ := h'.spelled _ hq
    rw [hone e (hperm.mem_iff.1 he) d hd hsame]
  refine List.Pairwise.eq_of_mem_iff h'.increasing h.increasing fun p =>
    ⟨fun hp => ?_, fun hp => ?_⟩
  · obtain ⟨q, hq, hsame⟩ := (h.exists_iff_of_perm h' hperm p).1 ⟨p, hp,
      p.sameAs_self⟩
    rwa [hspelled q hq p hp (Path.sameAs_comm.trans hsame)]
  · obtain ⟨q, hq, hsame⟩ := (h.exists_iff_of_perm h' hperm p).2 ⟨p, hp,
      p.sameAs_self⟩
    rwa [← hspelled p hp q hq hsame]

end IsListing

/-- The listing of a directory is the part of the whole listing that is at or
below it. -/
private theorem listing_eq_filter (entries : List Staged) (dir : Path) :
    listing entries dir
      = (listing entries (Path.ofString ".")).filter fun p =>
        (below dir).isPrefixOf p.components := by
  have hwhole : filesBelow entries dir
      = (filesBelow entries (Path.ofString ".")).filter fun p =>
        (below dir).isPrefixOf p.components := by
    have hall : below (Path.ofString ".") = [] := by decide
    simp [filesBelow, hall]
  refine List.Pairwise.eq_of_mem_iff (listing_pairwise entries dir)
    ((listing_pairwise entries _).filter _) fun q => ?_
  rw [List.mem_filter, mem_listing_iff, mem_listing_iff, hwhole,
    List.find?_filter]
  -- spellings of one path are below a directory all or none
  have hpred (p : Path) : decide
        ((below dir).isPrefixOf p.components = true ∧ p.sameAs q = true)
      = (p.sameAs q && (below dir).isPrefixOf q.components) := by
    cases hsame : p.sameAs q with
    | true =>
        simp only [eq_of_beq hsame, and_true, Bool.true_and,
          Bool.decide_eq_true]
    | false => simp
  simp only [hpred]
  cases (below dir).isPrefixOf q.components with
  | true => simp
  | false =>
      simp only [Bool.and_false, Bool.false_eq_true, and_false, iff_false]
      exact fun h => by simpa using List.find?_some h

private theorem below_eq_of_steps {dir' : Path}
    (habs : dir'.isAbsolute = dir.isAbsolute)
    (hsteps : dir'.steps = dir.steps) : below dir' = below dir := by
  rw [below, below, Path.filter_components, Path.filter_components,
    habs, hsteps]

private theorem listing_congr {dir' : Path} (h : below dir' = below dir) :
    listing entries dir' = listing entries dir := by
  rw [listing_eq, listing_eq, filesBelow, filesBelow, h]

end Staged

-- ========================================================== the listing

namespace Repository

variable {s : Session} {root dir : Path} {r : Repository}
  {entries : List Staged}

/-- To say a detail for each of a list is to say them all. -/
private theorem forM_detail {α : Type} (text : α → String) (l : List α)
    (s : Session) :
    (l.forM fun a => Job.detail (text a)) s
      = .ok PUnit.unit (s.saying (l.map fun a => .detail (text a))) := by
  induction l generalizing s with
  | nil => simp [pure, EStateM.pure, Session.saying]
  | cons a l ih =>
      change (Job.detail (text a) >>= fun _ => l.forM fun a =>
          Job.detail (text a)) s = _
      refine (Job.bind_of_ok (Job.say_eq _ _)).trans ((ih _).trans ?_)
      rw [Session.saying_saying]
      rfl

/-- The tracked files are listed whenever the repository can be opened and its
index read. Nothing but that is said comes of it. -/
private theorem trackedFiles_of_staged (hopen : openAt s.tree root = .ok r)
    (hstaged : r.staged s.tree = some entries) (dir : Path) :
    ∃ said, trackedFiles root dir s
      = .ok (Staged.listing entries dir) (s.saying said) := by
  apply Exists.intro
  refine (Job.bind_of_ok (j := Job.tree) rfl).trans
    ((Job.bind_of_ok (Job.orFail_of_ok _ hopen s)).trans ?_)
  simp only [hstaged]
  refine (Job.bind_of_ok (Job.say_eq _ _)).trans ((Job.bind_of_ok
      (forM_detail _ _ _)).trans ((Job.bind_of_ok (Job.say_eq _ _)).trans ?_))
  rw [Session.saying_saying, Session.saying_saying]
  rfl

end Repository

/-- Whatever an index holds and in whatever order, the tracked files at or
below a directory are listed: strictly upwards in the order of paths, and each
path of which the index has an entry that is no submodule, is text and begins
with the components of the directory. So neither the order of the index nor the
spelling of the directory makes a difference, and what is listed for a
directory is the part of the whole listing that is in it. -/
theorem tracked_files_canonical (entries : List Staged) (dir : Path) :
    (∀ s root r, Repository.openAt s.tree root = .ok r →
      Repository.staged s.tree r = some entries →
      ∃ said, Repository.trackedFiles root dir s
        = .ok (Staged.listing entries dir) (s.saying said))
      ∧ Staged.IsListing entries dir (Staged.listing entries dir)
      ∧ (∀ other, other.Perm entries →
        (Staged.listing other dir).map Path.components
            = (Staged.listing entries dir).map Path.components
          ∧ ((∀ d ∈ entries, ∀ e ∈ entries,
            (Path.mk d.path).sameAs (Path.mk e.path) = true →
            d.path = e.path) →
            Staged.listing other dir = Staged.listing entries dir))
      ∧ (∀ dir', dir'.isAbsolute = dir.isAbsolute → dir'.steps = dir.steps →
        Staged.listing entries dir' = Staged.listing entries dir)
      ∧ Staged.listing entries dir
        = (Staged.listing entries (Path.ofString ".")).filter fun p =>
          (Staged.below dir).isPrefixOf p.components := by
  have hlisting := Staged.isListing_listing entries dir
  refine ⟨fun s root r hopen hstaged => Repository.trackedFiles_of_staged hopen
    hstaged dir, hlisting, fun other hperm => ?_, fun dir' habs hsteps => ?_,
    Staged.listing_eq_filter entries dir⟩
  · have hother := Staged.isListing_listing other dir
    exact ⟨hlisting.components_eq_of_perm hother hperm,
      hlisting.eq_of_perm hother hperm⟩
  · exact Staged.listing_congr (Staged.below_eq_of_steps habs hsteps)

open Repository (name)

/-- The entries of an index with a conflict, a submodule and a path that is no
text. -/
def conflicted : List Staged :=
  [{ path := name "src/b.rs", stage := 2 },
    { path := name "src/b.rs", stage := 3 },
    { path := name "src-a.rs" }, { path := name "src/a.rs" },
    { path := name "src/lib", mode := Staged.submodule }, { path := [0xFF] }]

/-- The repository with another index. -/
def checkoutWith (index : Bytes) : Tree :=
  checkout.set [name "r", name ".git", name "index"] (.file index)

private theorem openAt_checkoutWith (index : Bytes) :
    Repository.openAt (checkoutWith index) ⟨name "/r/"⟩
      = .ok ⟨[name "r", name ".git"]⟩ := by cbv

/-- The index of the checkout is read back. -/
private theorem staged_checkoutWith {entries : List Staged}
    (h : ∀ e ∈ entries, Index.Fits e)
    (hlength : entries.length < Index.capacity 4) :
    Repository.staged (checkoutWith (Index.write entries)) ⟨[name "r",
        name ".git"]⟩
      = some entries := by
  have hread (index : Bytes) : Tree.read (checkoutWith index)
      (Repository.indexPath ⟨[name "r", name ".git"]⟩) = .ok index := by cbv
  rw [Repository.staged, hread]
  exact Index.read?_write h hlength

theorem tracked_files_of_conflict :
    let s : Session := { tree := checkoutWith (Index.write conflicted) }
    Repository.openAt s.tree ⟨name "/r/"⟩ = .ok ⟨[name "r", name ".git"]⟩
      ∧ Repository.staged s.tree ⟨[name "r", name ".git"]⟩ = some conflicted
      ∧ (Path.ofString ".//src/").steps = (Path.ofString "src").steps
      ∧ ∃ said,
      Repository.trackedFiles ⟨name "/r/"⟩ (Path.ofString ".//src/") s
        = .ok [⟨name "src/a.rs"⟩, ⟨name "src/b.rs"⟩] (s.saying said) := by
  intro s
  have hfits : ∀ e ∈ conflicted,
      0 ∉ e.path ∧ e.mode < Index.capacity 4 ∧ e.stage < 4 := by
    decide
  have hopen := openAt_checkoutWith (Index.write conflicted)
  have hstaged := @staged_checkoutWith conflicted
    (fun e he => ⟨(hfits e he).1, (hfits e he).2.1, (hfits e he).2.2⟩)
    (by decide)
  have hsteps : (Path.ofString ".//src/").steps
    = (Path.ofString "src").steps := by decide
  obtain ⟨-, -, -, hrespelled, -⟩ :=
    tracked_files_canonical conflicted (Path.ofString "src")
  obtain ⟨said, hsaid⟩ :=
    (tracked_files_canonical conflicted (Path.ofString ".//src/")).1 s _ _
      hopen hstaged
  have hlisting : Staged.listing conflicted (Path.ofString "src")
      = [⟨name "src/a.rs"⟩, ⟨name "src/b.rs"⟩] := by cbv
  refine ⟨hopen, hstaged, hsteps, said, ?_⟩
  rw [hsaid, hrespelled _ (by decide) hsteps, hlisting]

end CopyrightNotice
