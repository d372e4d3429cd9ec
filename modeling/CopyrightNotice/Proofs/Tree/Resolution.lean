/-
Paths without links. `Resolves` lists the steps of the walk that spells out
where it is (`resolve_eq_ok_iff`). They are steps of the plain walk
(`Resolves.arrives`), so a canonical path is the path of the very location
that is led to (`canonical_eq_of_locate`).

# What lies too deep

At every name the walk asks about the path from the top that it has come to,
so what it comes to has a path below the limit (`Resolves.short`). An entry
that lies deeper has no canonical path, though a path through links may lead
to it (`canonical_of_deep`). Where no entry lies so deep, everything that
exists has one (`canonical_of_shallow`).
-/
import CopyrightNotice.Proofs.Path.Enclosing
import CopyrightNotice.Proofs.Tree.Arrival

namespace CopyrightNotice.Tree

-- ============================================================ the steps

/-- The walk from `l` along some parts that asks about each name by its path
from the top, with so many links to follow at most, ends at `e`. -/
inductive Resolves (t : Tree) : Nat → Location → List Bytes → Location → Prop
  | done {links l} : Resolves t links l [] l
  | stay {links l part rest e} (dir : t.isDirectory l = true)
      (hvoid : Path.isVoid part = true) (more : Resolves t links l rest e) :
      Resolves t links l (part :: rest) e
  | up {links l rest e} (dir : t.isDirectory l = true)
      (more : Resolves t links l.dropLast rest e) :
      Resolves t links l ([Path.dot, Path.dot] :: rest) e
  | follow {links l part rest target e} (dir : t.isDirectory l = true)
      (name : Named part)
      (asked : (Location.path (l ++ [part])).bytes.length < pathLimit)
      (entry : t.entry? (l ++ [part]) = some (.link target))
      (more : Resolves t links (if target.isAbsolute then [] else l)
        (parts target ++ rest) e) :
      Resolves t (links + 1) l (part :: rest) e
  /-- Before a step up and at the end of a path with a slash, the directory is
  asked for with a slash behind it. -/
  | enter {links l part rest entry e} (dir : t.isDirectory l = true)
      (name : Named part)
      (asked : (Location.path (l ++ [part])).bytes.length < pathLimit)
      (found : t.entry? (l ++ [part]) = some entry)
      (solid : ∀ target, entry ≠ .link target)
      (slashed : asksDirectory rest = true →
        (Location.path (l ++ [part])).bytes.length + 1 < pathLimit)
      (more : Resolves t links (l ++ [part]) rest e) :
      Resolves t links l (part :: rest) e

variable {t : Tree} {links : Nat} {l e : Location} {todo : List Bytes}

/-- A walk that spells out where it is takes one of the steps at each part. -/
private theorem resolves_of_resolve (h : t.resolve links l todo = .ok e) :
    Resolves t links l todo e := by
  induction links, l, todo using Tree.resolve.induct t with
  | case1 links l =>
      rw [resolve] at h
      cases h
      exact .done
  | case2 links l part rest hdir =>
      rw [resolve, if_pos hdir] at h
      cases h
  | case3 links l part rest hdir hvoid ih =>
      rw [resolve, if_neg hdir, if_pos hvoid] at h
      exact .stay (by simpa using hdir) hvoid (ih h)
  | case4 links l rest hdir hvoid ih =>
      rw [resolve, if_neg hdir, if_neg hvoid, if_pos rfl] at h
      exact .up (by simpa using hdir) (ih h)
  | case5 links l part rest hdir hvoid hup next hlong =>
      rw [resolve, if_neg hdir, if_neg hvoid, if_neg hup, if_pos hlong] at h
      cases h
  | case6 links l part rest hdir hvoid hup next hlong hnext =>
      rw [resolve, if_neg hdir, if_neg hvoid, if_neg hup, if_neg hlong] at h
      simp only [show t.entry? (l ++ [part]) = none from hnext] at h
      cases h
  | case7 l part rest hdir hvoid hup next hlong target hnext =>
      rw [resolve, if_neg hdir, if_neg hvoid, if_neg hup, if_neg hlong] at h
      simp only [show t.entry? (l ++ [part]) = some (.link target)
        from hnext] at h
      cases h
  | case8 l part rest hdir hvoid hup next hlong target hnext links ih =>
      rw [resolve, if_neg hdir, if_neg hvoid, if_neg hup, if_neg hlong] at h
      simp only [show t.entry? (l ++ [part]) = some (.link target)
        from hnext] at h
      exact .follow (by simpa using hdir)
        ⟨by simpa using hvoid, hup, by omega⟩
        (Nat.lt_of_not_le fun hlen => hlong (.inr hlen)) hnext (ih h)
  | case9 links l part rest hdir hvoid hup next hlong entry hlink
      hnext hdeep =>
      rw [resolve, if_neg hdir, if_neg hvoid, if_neg hup, if_neg hlong] at h
      cases entry with
      | link target => exact (hlink target rfl).elim
      | _ =>
          simp only [show t.entry? (l ++ [part]) = some _ from hnext] at h
          rw [if_pos hdeep] at h
          cases h
  | case10 links l part rest hdir hvoid hup next hlong entry hlink
      hnext hflat ih =>
      rw [resolve, if_neg hdir, if_neg hvoid, if_neg hup, if_neg hlong] at h
      refine .enter (by simpa using hdir)
        ⟨by simpa using hvoid, hup, by omega⟩
        (Nat.lt_of_not_le fun hlen => hlong (.inr hlen)) hnext
        (fun target heq => hlink target heq)
        (fun hasks => Nat.lt_of_not_le fun hlen => hflat ⟨hasks, hlen⟩) (ih ?_)
      cases entry with
      | link target => exact (hlink target rfl).elim
      | _ =>
          simp only [show t.entry? (l ++ [part]) = some _ from hnext] at h
          rwa [if_neg hflat] at h

/-- Steps of a walk that spells out where it is lead it to their end. -/
private theorem Resolves.resolve_eq (h : Resolves t links l todo e) :
    t.resolve links l todo = .ok e := by
  induction h with
  | done => rw [resolve]
  | stay dir hvoid _ ih =>
      rw [resolve, if_neg (by simp [dir]), if_pos hvoid, ih]
  | up dir _ ih =>
      rw [resolve, if_neg (by simp [dir]), if_neg (by decide), if_pos rfl, ih]
  | follow dir name asked entry _ ih =>
      have hname := name.short
      rw [resolve, if_neg (by simp [dir]), if_neg (by simp [name.notVoid]),
        if_neg name.notUp, if_neg (by omega)]
      simp only [entry]
      exact ih
  | @enter _ _ _ _ entry _ dir name asked found solid slashed _ ih =>
      have hname := name.short
      rw [resolve, if_neg (by simp [dir]), if_neg (by simp [name.notVoid]),
        if_neg name.notUp, if_neg (by omega)]
      have hflat : ¬(asksDirectory _ = true ∧ pathLimit ≤ _) :=
        fun hdeep => Nat.not_le.2 (slashed hdeep.1) hdeep.2
      cases entry with
      | link target => exact absurd rfl (solid target)
      | _ =>
          simp only [found]
          rw [if_neg hflat, ih]

/-- `Resolves` says what the walk does when it arrives. -/
theorem resolve_eq_ok_iff :
    t.resolve links l todo = .ok e ↔ Resolves t links l todo e :=
  ⟨resolves_of_resolve, Resolves.resolve_eq⟩

/-- The plain walk takes the same steps. -/
theorem Resolves.arrives (h : Resolves t links l todo e) :
    Arrives t .target links l todo e := by
  induction h with
  | done => exact .done
  | stay dir hvoid _ ih => exact .stay dir hvoid ih
  | up dir _ ih => exact .up dir ih
  | follow dir name _ entry _ ih =>
      exact .follow dir name (by simp) (by simp) entry ih
  | enter dir name _ found solid _ _ ih =>
      exact .enter dir name (by simp) found solid ih

-- ======================================================= how deep it gets

private theorem length_path_dropLast_le (l : Location) :
    (Location.path l.dropLast).bytes.length ≤ l.path.bytes.length :=
  Nat.succ_le_succ (Path.unsplit_prefix l.dropLast_prefix).length_le

/-- What such a walk comes to has a path below the limit. -/
theorem Resolves.short (h : Resolves t links l todo e)
    (hl : l.path.bytes.length < pathLimit) :
    e.path.bytes.length < pathLimit := by
  induction h with
  | done => exact hl
  | stay _ _ _ ih => exact ih hl
  | up _ _ ih => exact ih (Nat.lt_of_le_of_lt (length_path_dropLast_le _) hl)
  | follow _ _ _ _ _ ih =>
      -- the target's walk begins at the top or where it was
      refine ih ?_
      split
      · decide
      · exact hl
  | enter _ _ asked _ _ _ _ ih => exact ih asked

/-- No entry of the tree lies so deep that its path, with a slash behind it,
reaches the limit. -/
def Shallow (t : Tree) : Prop :=
  ∀ l entry, t.entry? l = some entry → l.path.bytes.length + 1 < pathLimit

/-- It is enough to look at the entries that are listed. -/
theorem shallow_of_entries
    (h : ∀ e ∈ t.entries, (Location.path e.1).bytes.length + 1 < pathLimit) :
    t.Shallow := by
  intro l entry hentry
  rcases mem_entries hentry with ⟨rfl, -⟩ | hmem
  · decide
  · exact h _ hmem

/-- In a shallow tree the plain walk can spell out where it is. -/
private theorem Arrives.resolves (h : Arrives t .target links l todo e)
    (hshallow : t.Shallow) : Resolves t links l todo e := by
  induction h with
  | done => exact .done
  | stay dir hvoid _ ih => exact .stay dir hvoid ih
  | up dir _ ih => exact .up dir ih
  | free _ _ hgoal | link _ _ hgoal => cases hgoal
  | follow dir name _ _ entry _ ih =>
      exact .follow dir name (Nat.lt_of_succ_lt (hshallow _ _ entry)) entry ih
  | enter dir name _ found solid _ ih =>
      have hnext := hshallow _ _ found
      exact .enter dir name (Nat.lt_of_succ_lt hnext) found solid
        (fun _ => hnext) ih

-- ========================================================= canonical paths

variable {p q : Path}

/-- A path has a canonical one if the walk along it can spell out where it
is. -/
theorem canonical_eq_ok_iff :
    t.canonical p = .ok q
      ↔ (0 : UInt8) ∉ p.bytes
        ∧ p.bytes ≠ []
        ∧ ∃ l, Location.path l = q
          ∧ Resolves t maxLinks (if p.isAbsolute then [] else t.here)
            (parts p) l := by
  have hmap (r : Except Fault Location) :
      r.map Location.path = .ok q ↔ ∃ l, Location.path l = q ∧ r = .ok l := by
    cases r <;> simp [Except.map]
  unfold canonical
  by_cases hnul : (0 : UInt8) ∈ p.bytes
  · simp [hnul]
  · by_cases hempty : p.bytes = []
    · simp [hempty]
    · rw [if_neg (by simpa using hnul), if_neg hempty, hmap]
      simp only [hnul, hempty, not_false_eq_true, ne_eq, true_and,
        resolve_eq_ok_iff]

/-- A canonical path is the path of the location that is led to. -/
theorem canonical_eq_of_locate (hl : t.locate .target p = .ok l)
    (hq : t.canonical p = .ok q) : q = l.path := by
  obtain ⟨-, -, e, rfl, hresolves⟩ := canonical_eq_ok_iff.1 hq
  have harrives := (locate_eq_ok_iff.1 hl).arrives
  rw [← walk_eq_ok_iff, hresolves.arrives.walk_eq] at harrives
  rw [Except.ok.inj harrives]

/-- In a shallow tree everything that exists has a canonical path. -/
theorem canonical_of_shallow (hshallow : t.Shallow)
    (hl : t.locate .target p = .ok l) : t.canonical p = .ok l.path := by
  have hlocated := locate_eq_ok_iff.1 hl
  exact canonical_eq_ok_iff.2 ⟨hlocated.noNul, hlocated.nonempty, l, rfl,
    hlocated.arrives.resolves hshallow⟩

/-- What lies too deep exists, and has no canonical path. -/
theorem canonical_of_deep (habs : p.isAbsolute = true)
    (hl : t.locate .target p = .ok l)
    (hdeep : pathLimit ≤ l.path.bytes.length) :
    ∃ fault, t.canonical p = .error fault := by
  cases hq : t.canonical p with
  | error fault => exact ⟨fault, rfl⟩
  | ok q =>
      obtain rfl := canonical_eq_of_locate hl hq
      obtain ⟨-, -, e, heq, hresolves⟩ := canonical_eq_ok_iff.1 hq
      rw [if_pos habs] at hresolves
      have hshort := hresolves.short (by decide)
      rw [heq] at hshort
      exact absurd hdeep (Nat.not_le.2 hshort)

end CopyrightNotice.Tree
