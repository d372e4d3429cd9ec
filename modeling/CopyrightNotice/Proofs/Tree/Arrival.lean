/-
Walks that arrive. `Arrives` lists the steps that such a walk can take, one
constructor each, so that later proofs are inductions over it and never
open the walk itself (`walk_eq_ok_iff`).

# One file, three goals

A path can be asked for its own entry, for what it leads to and for a place
to write to. The three differ at links and free places only. Where a path's
own entry is a file, the other two walks therefore end there as well
(`Arrives.target_of_file`, `Arrives.place_of_file`): the file that a filter
has seen is the file that is read and written.

Where a path leads in a given tree is found out with a bound on the steps
(`locate_eq_of_locateWithin`).
-/
import CopyrightNotice.Proofs.Tree.Shape

namespace CopyrightNotice.Tree

-- ============================================================ the steps

/-- A part that is the name of an entry. -/
structure Named (part : Bytes) : Prop where
  notVoid : Path.isVoid part = false
  notUp : part ≠ [Path.dot, Path.dot]
  short : part.length ≤ maxName

/-- The walk from `l` along some parts, with so many links to follow at
most, ends at `e`. -/
inductive Arrives (t : Tree) (goal : Goal) :
    Nat → Location → List Bytes → Location → Prop
  | done {links l} : Arrives t goal links l [] l
  | stay {links l part rest e} (dir : t.isDirectory l = true)
      (hvoid : Path.isVoid part = true)
      (more : Arrives t goal links l rest e) :
      Arrives t goal links l (part :: rest) e
  | up {links l rest e} (dir : t.isDirectory l = true)
      (more : Arrives t goal links l.dropLast rest e) :
      Arrives t goal links l ([Path.dot, Path.dot] :: rest) e
  /-- The end of the path is a free place. -/
  | free {links l part} (dir : t.isDirectory l = true) (name : Named part)
      (hgoal : goal = .place) (entry : t.entry? (l ++ [part]) = none) :
      Arrives t goal links l [part] (l ++ [part])
  /-- The end of the path is a link, and the link is asked for. -/
  | link {links l part target} (dir : t.isDirectory l = true)
      (name : Named part)
      (hgoal : goal = .itself)
      (entry : t.entry? (l ++ [part]) = some (.link target)) :
      Arrives t goal links l [part] (l ++ [part])
  | follow {links l part rest target e} (dir : t.isDirectory l = true)
      (name : Named part) (hplace : ¬(goal = .place ∧ rest = [[]]))
      (hitself : ¬(goal = .itself ∧ rest = []))
      (entry : t.entry? (l ++ [part]) = some (.link target))
      (more : Arrives t goal links (if target.isAbsolute then [] else l)
        (parts target ++ rest) e) :
      Arrives t goal (links + 1) l (part :: rest) e
  | enter {links l part rest entry e} (dir : t.isDirectory l = true)
      (name : Named part) (hplace : ¬(goal = .place ∧ rest = [[]]))
      (found : t.entry? (l ++ [part]) = some entry)
      (solid : ∀ target, entry ≠ .link target)
      (more : Arrives t goal links (l ++ [part]) rest e) :
      Arrives t goal links l (part :: rest) e

variable {t : Tree} {goal : Goal} {links : Nat} {l e : Location}
  {todo : List Bytes}

/-- By induction on the walk, each turn of which is one of the ways to
arrive. -/
theorem arrives_of_walk (h : t.walk goal links l todo = .ok e) :
    Arrives t goal links l todo e := by
  induction links, l, todo using Tree.walk.induct t goal with
  | case1 links l =>
      rw [walk] at h
      cases h
      exact .done
  -- cases 2, 5, 6, 8 and 10 end in a fault, and there is nothing to show
  | case2 links l part rest hdir =>
      rw [walk, if_pos hdir] at h
      cases h
  | case3 links l part rest hdir hvoid ih =>
      rw [walk, if_neg hdir, if_pos hvoid] at h
      exact .stay (by simpa using hdir) hvoid (ih h)
  | case4 links l rest hdir hvoid ih =>
      rw [walk, if_neg hdir, if_neg hvoid, if_pos rfl] at h
      exact .up (by simpa using hdir) (ih h)
  | case5 links l part rest hdir hvoid hup hlong =>
      rw [walk, if_neg hdir, if_neg hvoid, if_neg hup, if_pos hlong] at h
      cases h
  | case6 links l part rest hdir hvoid hup hlong hplace =>
      rw [walk, if_neg hdir, if_neg hvoid, if_neg hup, if_neg hlong,
        if_pos hplace] at h
      cases h
  | case7 links l part rest hdir hvoid hup hlong hplace next hnext hfree =>
      rw [walk, if_neg hdir, if_neg hvoid, if_neg hup, if_neg hlong,
        if_neg hplace] at h
      obtain ⟨hgoal, rfl⟩ := hfree
      simp only [show t.entry? (l ++ [part]) = none from hnext, hgoal,
        and_self, if_true] at h
      cases h
      exact .free (by simpa using hdir) ⟨by simpa using hvoid, hup, by omega⟩
        hgoal hnext
  | case8 links l part rest hdir hvoid hup hlong hplace next hnext hfree =>
      rw [walk, if_neg hdir, if_neg hvoid, if_neg hup, if_neg hlong,
        if_neg hplace] at h
      simp only [show t.entry? (l ++ [part]) = none from hnext,
        if_neg hfree] at h
      cases h
  | case9 links l part rest hdir hvoid hup hlong hplace next target
      hnext hitself =>
      rw [walk, if_neg hdir, if_neg hvoid, if_neg hup, if_neg hlong,
        if_neg hplace] at h
      simp only [show t.entry? (l ++ [part]) = some (.link target) from hnext,
        if_pos hitself] at h
      cases h
      obtain ⟨hgoal, rfl⟩ := hitself
      exact .link (by simpa using hdir) ⟨by simpa using hvoid, hup, by omega⟩
        hgoal hnext
  | case10 l part rest hdir hvoid hup hlong hplace next target hnext hitself =>
      rw [walk, if_neg hdir, if_neg hvoid, if_neg hup, if_neg hlong,
        if_neg hplace] at h
      simp only [show t.entry? (l ++ [part]) = some (.link target) from hnext,
        if_neg hitself] at h
      cases h
  -- the walk goes on with the parts of the target, one link less to follow
  | case11 l part rest hdir hvoid hup hlong hplace next target hnext
      hitself links ih =>
      rw [walk, if_neg hdir, if_neg hvoid, if_neg hup, if_neg hlong,
        if_neg hplace] at h
      simp only [show t.entry? (l ++ [part]) = some (.link target) from hnext,
        if_neg hitself] at h
      exact .follow (by simpa using hdir) ⟨by simpa using hvoid, hup, by omega⟩
        hplace hitself hnext (ih h)
  | case12 links l part rest hdir hvoid hup hlong hplace next entry
      hlink hnext ih =>
      rw [walk, if_neg hdir, if_neg hvoid, if_neg hup, if_neg hlong,
        if_neg hplace] at h
      refine .enter (by simpa using hdir) ⟨by simpa using hvoid, hup, by omega⟩
        hplace hnext hlink (ih ?_)
      cases entry with
      | link target => exact absurd rfl (hlink target)
      | _ =>
          simpa only [show t.entry? (l ++ [part]) = some _ from hnext] using h

/-- The walk takes each of these ways, and in no case has a choice. -/
theorem Arrives.walk_eq (h : Arrives t goal links l todo e) :
    t.walk goal links l todo = .ok e := by
  induction h with
  | done => rw [walk]
  | stay dir hvoid _ ih => rw [walk, if_neg (by simp [dir]), if_pos hvoid, ih]
  | up dir _ ih =>
      rw [walk, if_neg (by simp [dir]), if_neg (by decide), if_pos rfl, ih]
  | free dir name hgoal entry =>
      rw [walk, if_neg (by simp [dir]), if_neg (by simp [name.notVoid]),
        if_neg name.notUp, if_neg (by have := name.short; omega),
        if_neg (by simp)]
      simp [entry, hgoal]
  | link dir name hgoal entry =>
      rw [walk, if_neg (by simp [dir]), if_neg (by simp [name.notVoid]),
        if_neg name.notUp, if_neg (by have := name.short; omega),
        if_neg (by simp)]
      simp [entry, hgoal]
  | follow dir name hplace hitself entry _ ih =>
      rw [walk, if_neg (by simp [dir]), if_neg (by simp [name.notVoid]),
        if_neg name.notUp, if_neg (by have := name.short; omega),
        if_neg hplace]
      simp only [entry, if_neg hitself]
      exact ih
  | @enter _ _ _ _ entry _ dir name hplace found solid _ ih =>
      rw [walk, if_neg (by simp [dir]), if_neg (by simp [name.notVoid]),
        if_neg name.notUp, if_neg (by have := name.short; omega),
        if_neg hplace]
      cases entry with
      | link target => exact absurd rfl (solid target)
      | _ => simpa only [found] using ih

/-- `Arrives` says what the walk does when it arrives. -/
theorem walk_eq_ok_iff :
    t.walk goal links l todo = .ok e ↔ Arrives t goal links l todo e :=
  ⟨arrives_of_walk, Arrives.walk_eq⟩

-- ===================================================== walks, computed

/-- The walk, in a number of steps at most. It is by this number that it goes
on, so it can be computed. -/
def walkWithin (t : Tree) (goal : Goal) :
    Nat → Nat → Location → List Bytes → Option (Except Fault Location)
  | 0, _, _, _ => none
  | _ + 1, _, l, [] => some (.ok l)
  | steps + 1, links, l, part :: rest =>
    if !t.isDirectory l then some (.error .notDirectory)
    else if Path.isVoid part then walkWithin t goal steps links l rest
    else if part = [Path.dot, Path.dot] then
      walkWithin t goal steps links l.dropLast rest
    else if maxName < part.length then some (.error .nameTooLong)
    else if goal = .place ∧ rest = [[]] then some (.error .isDirectory)
    else
      match t.entry? (l ++ [part]) with
      | none =>
        some (if goal = .place ∧ rest = [] then .ok (l ++ [part])
          else .error .notFound)
      | some (.link target) =>
        if goal = .itself ∧ rest = [] then some (.ok (l ++ [part]))
        else match links with
          | 0 => some (.error .linkLoop)
          | links + 1 =>
            walkWithin t goal steps links (if target.isAbsolute then [] else l)
              (parts target ++ rest)
      | some _ => walkWithin t goal steps links (l ++ [part]) rest

/-- A walk that comes to its end in the steps it may take is the walk. -/
theorem walk_eq_of_walkWithin (steps : Nat) {result : Except Fault Location}
    (h : t.walkWithin goal steps links l todo = some result) :
    t.walk goal links l todo = result := by
  induction steps generalizing links l todo with
  | zero => cases h
  | succ steps ih =>
      cases todo with
      | nil =>
          rw [walk]
          exact Option.some.inj h
      | cons part rest =>
          rw [walk]
          simp only [walkWithin] at h
          -- both ask the same questions in the same order
          split at h
          · rw [if_pos ‹_›]
            exact Option.some.inj h
          rw [if_neg ‹_›]
          split at h
          · rw [if_pos ‹_›]
            exact ih h
          rw [if_neg ‹_›]
          split at h
          · rw [if_pos ‹_›]
            exact ih h
          rw [if_neg ‹_›]
          split at h
          · rw [if_pos ‹_›]
            exact Option.some.inj h
          rw [if_neg ‹_›]
          split at h
          · rw [if_pos ‹_›]
            exact Option.some.inj h
          rw [if_neg ‹_›]
          dsimp only
          cases hentry : t.entry? (l ++ [part]) with
          | none =>
              rw [hentry] at h
              exact Option.some.inj h
          | some entry =>
              rw [hentry] at h
              cases entry with
              | file | directory => exact ih h
              | link target =>
                  dsimp only at h ⊢
                  split at h
                  · rw [if_pos ‹_›]
                    exact Option.some.inj h
                  rw [if_neg ‹_›]
                  cases links with
                  | zero => exact Option.some.inj h
                  | succ links => exact ih h

/-- The location that a path leads to, in a number of steps at most. -/
def locateWithin (t : Tree) (goal : Goal) (steps : Nat) (p : Path) :
    Option (Except Fault Location) :=
  if p.bytes.contains 0 then some (.error .nul)
  else if p.bytes = [] then some (.error .notFound)
  else if pathLimit ≤ p.bytes.length then some (.error .nameTooLong)
  else
    t.walkWithin goal steps maxLinks (if p.isAbsolute then [] else t.here)
      (parts p)

/-- Where a path leads is found by computing it. -/
theorem locate_eq_of_locateWithin {p : Path} (steps : Nat)
    {result : Except Fault Location}
    (h : t.locateWithin goal steps p = some result) :
    t.locate goal p = result := by
  unfold locateWithin at h
  unfold locate
  split at h
  · rw [if_pos ‹_›]
    exact Option.some.inj h
  rw [if_neg ‹_›]
  split at h
  · rw [if_pos ‹_›]
    exact Option.some.inj h
  rw [if_neg ‹_›]
  split at h
  · rw [if_pos ‹_›]
    exact Option.some.inj h
  rw [if_neg ‹_›]
  exact walk_eq_of_walkWithin steps h

/-- Whether a path leads to an entry is found in the same way. -/
theorem leadsTo_eq_of_locateWithin {p : Path} (steps : Nat) {found : Bool}
    (h : (t.locateWithin .target steps p).map Except.isOk = some found) :
    t.leadsTo p = found := by
  obtain ⟨result, hresult, rfl⟩ := Option.map_eq_some_iff.1 h
  rw [leadsTo, locate_eq_of_locateWithin steps hresult]
  cases result <;> rfl

-- ======================================================= files by path

/-- A slash at the end of a path is met only by directories. -/
theorem Arrives.isDirectory_of_slash
    (h : Arrives t goal links l (todo ++ [[]]) e) :
    t.isDirectory e = true := by
  generalize hpath : todo ++ [[]] = path at h
  induction h generalizing todo with
  | done => simp at hpath
  | @stay _ _ part rest _ dir _ more ih =>
      rcases List.append_eq_cons_iff.1 hpath with ⟨-, hlast⟩ | ⟨front, -, rfl⟩
      · obtain ⟨-, rfl⟩ := List.cons.inj hlast
        cases more
        exact dir
      · exact ih rfl
  | up _ _ ih =>
      rcases List.append_eq_cons_iff.1 hpath with ⟨-, hlast⟩ | ⟨front, -, rfl⟩
      · cases hlast
      · exact ih rfl
  -- an empty part is no name, so it is never taken last by these
  | free _ name | link _ name =>
      rcases List.append_eq_cons_iff.1 hpath with ⟨-, hlast⟩
        | ⟨front, -, hrest⟩
      · obtain ⟨rfl, -⟩ := List.cons.inj hlast
        cases name.notVoid
      · simp at hrest
  | follow _ name _ _ _ _ ih =>
      rcases List.append_eq_cons_iff.1 hpath with ⟨-, hlast⟩ | ⟨front, -, rfl⟩
      · obtain ⟨rfl, -⟩ := List.cons.inj hlast
        cases name.notVoid
      · exact ih (List.append_assoc ..)
  | enter _ name _ _ _ _ ih =>
      rcases List.append_eq_cons_iff.1 hpath with ⟨-, hlast⟩ | ⟨front, -, rfl⟩
      · obtain ⟨rfl, -⟩ := List.cons.inj hlast
        cases name.notVoid
      · exact ih rfl

/-- A path that is itself a file leads to this file. -/
private theorem Arrives.target_of_file {c : Bytes}
    (h : Arrives t .itself links l todo e)
    (hfile : t.entry? e = some (.file c)) :
    Arrives t .target links l todo e := by
  induction h with
  | done => exact .done
  | stay dir hvoid _ ih => exact .stay dir hvoid (ih hfile)
  | up dir _ ih => exact .up dir (ih hfile)
  | free _ _ hgoal => cases hgoal
  | link _ _ _ entry =>
      rw [entry] at hfile
      cases hfile
  | follow dir name _ _ entry _ ih =>
      exact .follow dir name (by simp) (by simp) entry (ih hfile)
  | enter dir name _ found solid _ ih =>
      exact .enter dir name (by simp) found solid (ih hfile)

/-- A path that leads to a file is a place to write to, and the same. -/
theorem Arrives.place_of_file {c : Bytes}
    (h : Arrives t .target links l todo e)
    (hfile : t.entry? e = some (.file c)) :
    Arrives t .place links l todo e := by
  -- a slash behind the last name would ask for a directory
  have noSlash : ∀ {links l front}, ¬Arrives t .target links l
      (front ++ [[]]) e := by
    intro links l front harr
    have hdir := harr.isDirectory_of_slash
    simp [isDirectory, hfile] at hdir
  induction h with
  | done => exact .done
  | stay dir hvoid _ ih => exact .stay dir hvoid (ih hfile noSlash)
  | up dir _ ih => exact .up dir (ih hfile noSlash)
  | free _ _ hgoal | link _ _ hgoal => cases hgoal
  | follow dir name _ _ entry more ih =>
      refine .follow dir name ?_ (by simp) entry (ih hfile noSlash)
      rintro ⟨-, rfl⟩
      exact noSlash more
  | @enter _ _ _ rest _ _ dir name _ found solid more ih =>
      refine .enter dir name ?_ found solid (ih hfile noSlash)
      rintro ⟨-, rfl⟩
      exact @noSlash _ _ [] more

/-- A walk that `locate` found, and how long its path may be. -/
structure Located (t : Tree) (goal : Goal) (p : Path)
    (e : Location) : Prop where
  noNul : (0 : UInt8) ∉ p.bytes
  nonempty : p.bytes ≠ []
  short : p.bytes.length < pathLimit
  arrives :
    Arrives t goal maxLinks (if p.isAbsolute then [] else t.here) (parts p) e

/-- To locate a path is to arrive along its parts, if it is one that the system
takes. -/
theorem locate_eq_ok_iff {p : Path} :
    t.locate goal p = .ok e ↔ t.Located goal p e := by
  unfold locate
  constructor
  · intro h
    split at h
    · cases h
    · split at h
      · cases h
      · split at h
        · cases h
        · rename_i hnul hempty hlong
          exact ⟨by simpa using hnul, hempty, Nat.lt_of_not_le hlong,
            walk_eq_ok_iff.1 h⟩
  · rintro ⟨hnul, hempty, hshort, harrives⟩
    rw [if_neg (by simpa using hnul), if_neg hempty,
      if_neg (Nat.not_le.2 hshort)]
    exact walk_eq_ok_iff.2 harrives

/-- The path is itself a regular file: it leads to `l`, no link at its end,
and the file there holds `c`. -/
structure NamesFile (t : Tree) (p : Path) (l : Location)
    (c : Bytes) : Prop where
  located : t.locate .itself p = .ok l
  file : t.entry? l = some (.file c)

namespace NamesFile

variable {p : Path} {c d : Bytes} {m : Location}

theorem ne_nil (h : t.NamesFile p l c) : l ≠ [] := by
  rintro rfl
  cases h.file

/-- A path names one file. -/
theorem unique (h : t.NamesFile p l c) (k : t.NamesFile p m d) :
    l = m ∧ c = d := by
  obtain rfl : l = m := Except.ok.inj (h.located.symm.trans k.located)
  refine ⟨rfl, ?_⟩
  have := h.file.symm.trans k.file
  simpa using this

/-- The other goals of a walk end at the same file. -/
theorem locate_eq (h : t.NamesFile p l c) :
    t.locate .target p = .ok l ∧ t.locate .place p = .ok l := by
  obtain ⟨hnul, hne, hshort, harrives⟩ := locate_eq_ok_iff.1 h.located
  have htarget := harrives.target_of_file h.file
  exact ⟨locate_eq_ok_iff.2 ⟨hnul, hne, hshort, htarget⟩,
    locate_eq_ok_iff.2 ⟨hnul, hne, hshort, htarget.place_of_file h.file⟩⟩

/-- A named file is read, unless that is denied. -/
theorem read_eq (h : t.NamesFile p l c) :
    t.read p = if t.unreadable.contains l then .error .denied else .ok c := by
  simp only [Tree.read, h.locate_eq.1, bind, Except.bind, h.file]

/-- A named file is opened for writing, unless that is denied. -/
private theorem openFile_eq (h : t.NamesFile p l c) :
    t.openFile p
      = if t.unwritable.contains l then .error .denied else .ok (l, c) := by
  simp only [openFile, h.locate_eq.2, bind, Except.bind, h.file]

/-- Writing to a file that a path names changes what stands at its
location. -/
theorem write_eq (h : t.NamesFile p l c) (d : Bytes) :
    t.write p d
      = if t.unwritable.contains l then .error .denied else .ok
        (t.set l (.file d)) := by
  simp only [write, h.openFile_eq]
  split <;> rfl

theorem entryAt_eq (h : t.NamesFile p l c) : t.entryAt p = .ok (.file c) := by
  simp only [entryAt, h.located, bind, Except.bind, h.file]

end NamesFile

/-- What a path finds to be a file is a file that it names. -/
theorem namesFile_of_entryAt {p : Path} {c : Bytes}
    (h : t.entryAt p = .ok (.file c)) : ∃ l, t.NamesFile p l c := by
  cases hl : t.locate .itself p with
  | error fault => simp [entryAt, hl, bind, Except.bind] at h
  | ok l =>
      cases hentry : t.entry? l with
      | none => simp [entryAt, hl, hentry, bind, Except.bind] at h
      | some e =>
          simp only [entryAt, hl, hentry, bind, Except.bind] at h
          cases h
          exact ⟨l, hl, hentry⟩

/-- A path names the files of alike trees at one location. -/
theorem Alike.namesFile {u : Tree} {p : Path} {c : Bytes} (h : Alike t u)
    (hp : t.NamesFile p l c) : ∃ d, u.NamesFile p l d := by
  obtain ⟨d, hd⟩ := h.file_of_file hp.file
  exact ⟨d, h.locate_eq .itself p ▸ hp.located, hd⟩

/-- No two of the paths name one file. -/
def DifferentFiles (t : Tree) (ps : List Path) : Prop :=
  ps.Pairwise fun p q => ∀ l c d, t.NamesFile p l c → ¬t.NamesFile q l d

/-- Paths to different places name different files. -/
theorem differentFiles_of_locate {ps : List Path}
    (h : ps.Pairwise fun p q => t.locate .itself p ≠ t.locate .itself q) :
    t.DifferentFiles ps :=
  h.imp fun hne _ _ _ hp hq => hne (hp.located.trans hq.located.symm)

end CopyrightNotice.Tree
