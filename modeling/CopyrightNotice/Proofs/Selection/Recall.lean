/-
What is remembered of the directories that were asked about.

Questions are put one after the other, and each time the tree may be another
one. A question looks into the directories above its path, from the nearest
up to the first one with the marker; into each of them only once, for what
the first visit found is the answer at all later ones. Here the visits of a
history are told without the memory (`visitsOf`), and the memory is shown to
hold just what the first ones found (`recalls_memoAfter`).

# One directory, two spellings

Spellings of one directory are one key of the memory, and what is asked with
them leads to one place. So what is found does not depend on the spelling
(`holds_congr`), as long as it is not so long that nothing is found at all.
On a tree that does not change the memory is therefore not seen, unless some
directory is asked about both with a path that is too long and with one that
is not.
-/
import CopyrightNotice.Config.Basic
import CopyrightNotice.Repository.Discovery
import CopyrightNotice.Proofs.Path.Enclosing
import CopyrightNotice.Proofs.Tree.Arrival
import CopyrightNotice.Proofs.Tree.Spelling
import Mathlib.Data.List.Find

namespace CopyrightNotice

namespace OptOut

variable {o : OptOut} {t : Tree} {dir dir' : Path} {dirs : List Path}
  {memo : Memo}

-- ============================================================ spellings

/-- The path of the marker in a directory is short enough to be asked with. -/
def Fits (o : OptOut) (dir : Path) : Prop :=
  (o.markerIn dir).bytes.length < Tree.pathLimit

instance (o : OptOut) (dir : Path) : Decidable (o.Fits dir) :=
  inferInstanceAs (Decidable (_ < _))

/-- What is found in a directory does not depend on how it is spelled. -/
private theorem holds_congr (h : dir.components = dir'.components)
    (hfits : o.Fits dir ↔ o.Fits dir') : o.holds t dir = o.holds t dir' :=
  Tree.leadsTo_join_congr ((Path.respelled_of_components h).join o.root) hfits

-- =============================================================== visits

/-- A question: the tree at its time, and the path. -/
structure Question where
  tree : Tree
  path : Path

/-- A look into a directory: the tree at its time, and the directory as it was
spelled. -/
structure Visit where
  tree : Tree
  dir : Path

/-- The first of some visits to a directory. -/
def firstVisit? (visits : List Visit) (dir : Path) : Option Visit :=
  visits.find? (·.dir.sameAs dir)

/-- Whether the marker was in a directory at the first of some visits to it, or
is there now if there was none. -/
def found (o : OptOut) (visits : List Visit) (t : Tree) (dir : Path) : Bool :=
  match firstVisit? visits dir with
  | some first => o.holds first.tree first.dir
  | none => o.holds t dir

/-- The visits to some directories in turn, up to the first one in which the
marker was found. -/
def visitsTo (o : OptOut) (visits : List Visit) (t : Tree) :
    List Path → List Visit
  | [] => []
  | dir :: more =>
    ⟨t, dir⟩ :: if o.found visits t dir then [] else visitsTo o visits t more

/-- The visits that a question makes. -/
def visitsBy (o : OptOut) (visits : List Visit) (q : Question) : List Visit :=
  o.visitsTo visits q.tree q.path.enclosing

/-- The visits that questions make one after the other. -/
def visitsOf (o : OptOut) (history : List Question) : List Visit :=
  history.foldl (fun visits q => visits ++ o.visitsBy visits q) []

/-- What is remembered after questions that were put one after the other. -/
def memoAfter (o : OptOut) (history : List Question) : Memo :=
  history.foldl (fun memo q => (o.ask q.tree memo q.path).memo) []

/-- What is asked of the tree at a visit: nothing, if the directory was visited
before. -/
def probe? (o : OptOut) (visits : List Visit) (v : Visit) :
    Option (Path × Bool) :=
  match firstVisit? visits v.dir with
  | some _ => none
  | none => some (v.dir, o.holds v.tree v.dir)

variable {visits : List Visit} {v : Visit}

theorem firstVisit?_congr (h : dir.components = dir'.components) :
    firstVisit? visits dir = firstVisit? visits dir' := by
  simp only [firstVisit?, Path.sameAs, h]

/-- After a visit its directory has a first visit: an earlier one, or this. -/
theorem firstVisit?_concat_self : firstVisit? (visits ++ [v]) v.dir
    = some ((firstVisit? visits v.dir).getD v) := by
  rw [firstVisit?, List.find?_append, ← firstVisit?]
  cases firstVisit? visits v.dir <;> simp [Path.sameAs]

/-- A visit to a directory is none to another one. -/
theorem firstVisit?_concat_of_ne (h : v.dir.components ≠ dir.components) :
    firstVisit? (visits ++ [v]) dir = firstVisit? visits dir := by
  simp [firstVisit?, List.find?_append, Path.sameAs, h]

-- =============================================================== memory

/-- The memory holds what the first visits found. -/
def Recalls (o : OptOut) (visits : List Visit) (memo : Memo) : Prop :=
  ∀ dir, memo.lookup dir.components
    = (firstVisit? visits dir).map fun first => o.holds first.tree first.dir

theorem recalls_nil (o : OptOut) : o.Recalls [] [] := fun _ => rfl

/-- A directory that is remembered is visited without a trace. -/
private theorem Recalls.known {first : Visit} (h : o.Recalls visits memo)
    (hfirst : firstVisit? visits v.dir = some first) :
    o.Recalls (visits ++ [v]) memo := by
  intro dir
  by_cases hdir : v.dir.components = dir.components
  · rw [h dir, ← firstVisit?_congr hdir, ← firstVisit?_congr hdir,
      firstVisit?_concat_self, hfirst]
    rfl
  · rw [h dir, firstVisit?_concat_of_ne hdir]

/-- What is found at the first visit is remembered. -/
theorem Recalls.fresh (h : o.Recalls visits memo)
    (hfirst : firstVisit? visits v.dir = none) :
    o.Recalls (visits ++ [v])
      ((v.dir.components, o.holds v.tree v.dir) :: memo) := by
  intro dir
  by_cases hdir : v.dir.components = dir.components
  · rw [← firstVisit?_congr hdir, firstVisit?_concat_self, hfirst, ← hdir]
    simp
  · have hne : (dir.components == v.dir.components) = false := by
      simpa using Ne.symm hdir
    rw [List.lookup_cons, hne, firstVisit?_concat_of_ne hdir, h dir]

/-- One directory of a question: the visit is remembered, and ends the question
if the marker was found there. -/
private theorem Recalls.firstOf_cons (h : o.Recalls visits memo) (t : Tree)
    (dir : Path) :
    ∃ memo', o.Recalls (visits ++ [⟨t, dir⟩]) memo'
      ∧ ∀ more, o.firstOf t memo (dir :: more)
        = if o.found visits t dir then
          ⟨some dir, memo', (o.probe? visits ⟨t, dir⟩).toList⟩ else {o.firstOf
            t memo' more with probes := (o.probe? visits ⟨t, dir⟩).toList
          ++ (o.firstOf t memo' more).probes} := by
  have hlookup := h dir
  cases hfirst : firstVisit? visits dir with
  | some first =>
      rw [hfirst, Option.map_some] at hlookup
      refine ⟨memo, h.known (v := ⟨t, dir⟩) hfirst, fun more => ?_⟩
      have hprobe : o.probe? visits ⟨t, dir⟩ = none := by
        simp only [probe?, hfirst]
      have hfound : o.found visits t dir = o.holds first.tree first.dir := by
        simp only [found, hfirst]
      rw [firstOf, hlookup, hprobe, hfound]
      cases o.holds first.tree first.dir <;> rfl
  | none =>
      rw [hfirst, Option.map_none] at hlookup
      refine ⟨_, h.fresh (v := ⟨t, dir⟩) hfirst, fun more => ?_⟩
      have hprobe : o.probe? visits ⟨t, dir⟩ = some (dir, o.holds t dir) := by
        simp only [probe?, hfirst]
      have hfound : o.found visits t dir
        = o.holds t dir := by simp only [found, hfirst]
      rw [firstOf, hlookup, hprobe, hfound]
      cases o.holds t dir <;> rfl

/-- Which directories are visited depends on their first visits alone. -/
private theorem visitsTo_congr {visits' : List Visit}
    (h : ∀ dir ∈ dirs, firstVisit? visits' dir = firstVisit? visits dir) :
    o.visitsTo visits' t dirs = o.visitsTo visits t dirs := by
  induction dirs with
  | nil => rfl
  | cons dir dirs ih =>
      have hfound : o.found visits' t dir = o.found visits t dir := by
        simp only [found, h dir (List.mem_cons_self ..)]
      rw [visitsTo, visitsTo, hfound, ih fun dir' hdir' =>
        h dir' (List.mem_cons_of_mem _ hdir')]

/-- A visit is to one of the directories, in the tree as it is now. -/
theorem mem_of_mem_visitsTo (h : v ∈ o.visitsTo visits t dirs) :
    v.tree = t ∧ v.dir ∈ dirs := by
  induction dirs with
  | nil => cases h
  | cons dir dirs ih =>
      rcases List.mem_cons.1 h with rfl | h
      · exact ⟨rfl, List.mem_cons_self ..⟩
      · split at h
        · cases h
        · exact ⟨(ih h).1, List.mem_cons_of_mem _ (ih h).2⟩

/-- An answer about some directories: the first one in which the marker was
found decides, the tree is asked about those that were not visited before, and
all of these visits are remembered. -/
structure Answers (o : OptOut) (visits : List Visit) (t : Tree)
    (dirs : List Path)
    (answer : Answer) : Prop where
  decider : answer.decider = dirs.find? (o.found visits t)
  probes : answer.probes
    = (o.visitsTo visits t dirs).filterMap (o.probe? visits)
  memory : o.Recalls (visits ++ o.visitsTo visits t dirs) answer.memo

/-- By induction on the directories, which are distinct: those before the one
that answers have been visited, and the memory recalls them. -/
theorem Recalls.answers (h : o.Recalls visits memo) (t : Tree)
    (hdirs : dirs.Pairwise (·.components ≠ ·.components)) :
    o.Answers visits t dirs (o.firstOf t memo dirs) := by
  induction dirs generalizing visits memo with
  | nil => exact ⟨rfl, rfl, by simpa [visitsTo, firstOf] using h⟩
  | cons dir dirs ih =>
      obtain ⟨hdir, hmore⟩ := List.pairwise_cons.1 hdirs
      obtain ⟨memo', hmemo', heq⟩ := h.firstOf_cons t dir
      rw [heq]
      cases hfound : o.found visits t dir with
      | true =>
          refine ⟨by simp [hfound],
            ?_, by simpa [visitsTo, hfound] using hmemo'⟩
          cases hprobe : o.probe? visits ⟨t, dir⟩ <;> simp [visitsTo,
            hfound, hprobe]
      | false =>
          obtain ⟨hdecider, hprobes, hmemory⟩ := ih hmemo' hmore
          -- the visit to the directory says nothing of the others
          have hothers : ∀ other ∈ dirs,
            firstVisit? (visits ++ [⟨t, dir⟩]) other
              = firstVisit? visits other := fun other hother =>
            firstVisit?_concat_of_ne (hdir other hother)
          have hvisits : o.visitsTo visits t (dir :: dirs)
              = ⟨t, dir⟩ :: o.visitsTo visits t dirs := by
            simp [visitsTo, hfound]
          have hfounds : dirs.find? (o.found (visits ++ [⟨t, dir⟩]) t)
              = dirs.find? (o.found visits t) :=
            List.find?_congr fun other hother => by
              simp only [found, hothers other hother]
          have hasked : (o.visitsTo visits t dirs).filterMap
                (o.probe? (visits ++ [⟨t, dir⟩]))
              = (o.visitsTo visits t dirs).filterMap (o.probe? visits) :=
            List.filterMap_congr fun v hv => by
              simp only [probe?, hothers v.dir (mem_of_mem_visitsTo hv).2]
          rw [visitsTo_congr hothers] at hprobes hmemory
          constructor
          · rw [List.find?_cons_of_neg (by simp [hfound]), ← hfounds]
            exact hdecider
          · rw [hvisits, List.filterMap_cons, ← hasked, ← hprobes]
            cases o.probe? visits ⟨t, dir⟩ <;> rfl
          · rw [hvisits, List.append_cons]
            exact hmemory

-- ================================================================== runs

theorem visitsOf_concat (o : OptOut) (history : List Question) (q : Question) :
    o.visitsOf (history ++ [q])
      = o.visitsOf history ++ o.visitsBy (o.visitsOf history) q := by
  simp [visitsOf]

private theorem memoAfter_concat (o : OptOut) (history : List Question)
    (q : Question) :
    o.memoAfter (history ++ [q])
      = (o.ask q.tree (o.memoAfter history) q.path).memo := by
  simp [memoAfter]

/-- What is remembered after a history is what its first visits found. -/
private theorem recalls_memoAfter (o : OptOut) (history : List Question) :
    o.Recalls (o.visitsOf history) (o.memoAfter history) := by
  induction history using List.reverseRecOn with
  | nil => exact recalls_nil o
  | append_singleton history q ih =>
      rw [visitsOf_concat, memoAfter_concat]
      exact (ih.answers q.tree (Path.pairwise_enclosing q.path)).memory

/-- Every visit was made for one of the questions. -/
private theorem mem_of_mem_visitsOf {history : List Question}
    (h : v ∈ o.visitsOf history) :
    ∃ q ∈ history, v.tree = q.tree ∧ v.dir ∈ q.path.enclosing := by
  induction history using List.reverseRecOn with
  | nil => cases h
  | append_singleton history q ih =>
      rw [visitsOf_concat] at h
      rcases List.mem_append.1 h with h | h
      · obtain ⟨earlier, hearlier, hv⟩ := ih h
        exact ⟨earlier, List.mem_append_left _ hearlier, hv⟩
      · exact ⟨q, by simp, mem_of_mem_visitsTo h⟩

/-- What a directory answered at the first visit it answers still, on a tree
that has not changed since. -/
private theorem found_eq_holds
    (h : ∀ v ∈ visits, v.dir.components = dir.components →
      v.tree = t ∧ (o.Fits v.dir ↔ o.Fits dir)) :
    o.found visits t dir = o.holds t dir := by
  unfold found
  split
  · rename_i first hfirst
    have hsame : first.dir.components = dir.components := by
      simpa [Path.sameAs] using List.find?_some hfirst
    obtain ⟨htree, hfits⟩ := h first (List.mem_of_find?_eq_some hfirst) hsame
    rw [htree]
    exact holds_congr hsame hfits
  · rfl

/-- Whatever was asked before, the nearest directory in which the marker was
found at the first visit answers a question. On a tree that does not change
this is the nearest directory with the marker, if no directory is asked about
both with a path that is too long and with one that is not. -/
theorem nearest_first_found_answers (o : OptOut) (history : List Question)
    (q : Question) :
    o.Answers (o.visitsOf history) q.tree q.path.enclosing
        (o.ask q.tree (o.memoAfter history) q.path)
      ∧ ((∀ earlier ∈ history, earlier.tree = q.tree) →
        (∀ earlier ∈ history, ∀ seen ∈ earlier.path.enclosing, ∀ dir ∈
          q.path.enclosing, seen.components = dir.components →
          (o.Fits seen ↔ o.Fits dir)) →
        (o.ask q.tree (o.memoAfter history) q.path).decider
          = q.path.enclosing.find? (o.holds q.tree)) := by
  have hanswers := (recalls_memoAfter o history).answers q.tree
    (Path.pairwise_enclosing q.path)
  refine ⟨hanswers, fun hsame hfits => hanswers.decider.trans ?_⟩
  refine List.find?_congr fun dir hdir =>
    found_eq_holds fun v hv hcomponents => ?_
  obtain ⟨earlier, hearlier, htree, hseen⟩ := mem_of_mem_visitsOf hv
  exact ⟨htree.trans (hsame earlier hearlier),
    hfits earlier hearlier v.dir hseen dir hdir hcomponents⟩

end OptOut

/-- A file in a directory with the marker. -/
def markedFiles (content : Bytes) : Tree :=
  Tree.set
    { entries :=
        [([Repository.name "r"], .directory),
          ([Repository.name "r", Repository.name "v"], .directory),
          ([Repository.name "r", Repository.name "v", Repository.name "w"],
            .directory),
          ([Repository.name "r", Repository.name "v", Repository.name "w",
            Repository.name "NO_AUTO_COPYRIGHT"], .file [])] }
    [Repository.name "r", Repository.name "v", Repository.name "w",
      Repository.name "x.rs"]
    (.file content)

theorem nearest_first_found_of_marked_files :
    let o : OptOut := ⟨Path.ofString "/r", Config.defaultMarker⟩
    let t := markedFiles []
    let history : List OptOut.Question :=
      [⟨t, Path.ofString "v/x.rs"⟩, ⟨t, Path.ofString "v/./w/x.rs"⟩]
    let q : OptOut.Question := ⟨t, Path.ofString "v//w/x.rs"⟩
    (∀ earlier ∈ history, earlier.tree = q.tree)
      ∧ (∀ earlier ∈ history, ∀ seen ∈ earlier.path.enclosing,
      ∀ dir ∈ q.path.enclosing, seen.components = dir.components →
      (o.Fits seen ↔ o.Fits dir))
      ∧ (o.ask q.tree (o.memoAfter history) q.path).decider
          = q.path.enclosing.find? (o.holds q.tree)
      ∧ (o.ask q.tree (o.memoAfter history) q.path).decider
      = some (Path.ofString "v//w") := by
  intro o t history q
  have hsame : ∀ earlier ∈ history, earlier.tree = q.tree := by
    simp [history, q]
  have hfits : ∀ earlier ∈ history, ∀ seen ∈ earlier.path.enclosing,
      ∀ dir ∈ q.path.enclosing, seen.components = dir.components →
        (o.Fits seen ↔ o.Fits dir) := by
    decide
  have hdirect :=
    (OptOut.nearest_first_found_answers o history q).2 hsame hfits
  have hholds : o.holds q.tree (Path.ofString "v//w") = true :=
    Tree.leadsTo_eq_of_locateWithin 5 rfl
  have henclosing : q.path.enclosing
      = [Path.ofString "v//w", Path.ofString "v", ⟨[]⟩] := by decide
  refine ⟨hsame, hfits, hdirect, hdirect.trans ?_⟩
  rw [henclosing, List.find?_cons_of_pos hholds]

-- ========================================================= paths too long

/-- The directory `v/w` with so many slashes more. -/
def farDirectory (n : Nat) : Path :=
  ⟨Repository.name "v" ++ Path.slash :: (List.replicate n Path.slash
    ++ Repository.name "w")⟩

def farFile (n : Nat) : Path :=
  ⟨(farDirectory n).bytes ++ Path.slash :: Repository.name "x.rs"⟩

/-- Slashes in a row stand between empty parts. -/
private theorem split_replicate_slash (n : Nat) (bytes : Bytes) :
    Path.split (List.replicate n Path.slash ++ bytes)
      = List.replicate n [] ++ Path.split bytes := by
  induction n with
  | zero => rfl
  | succ n ih => simp [List.replicate_succ, Path.split, ih]

/-- The directory far down has its two names at either end. -/
theorem split_farDirectory (n : Nat) :
    Path.split (farDirectory n).bytes
      = ([Repository.name "v"] ++ List.replicate n [])
        ++ [Repository.name "w"] := by
  have hv : Path.split (Repository.name "v")
    = [Repository.name "v"] := by decide
  have hw : Path.split (Repository.name "w")
    = [Repository.name "w"] := by decide
  rw [farDirectory, Path.split_append_slash, split_replicate_slash, hv, hw,
    List.append_assoc]

/-- The directory's parent is spelled without the slashes. -/
private theorem parent?_farDirectory (n : Nat) :
    (farDirectory n).parent? = some ⟨Repository.name "v"⟩ := by
  have hv : Path.isVoid (Repository.name "v") = false := by decide
  have htrimmed : ∀ n, List.rdropWhile Path.isVoid
        ([Repository.name "v"] ++ List.replicate n [])
      = [Repository.name "v"] := by
    intro n
    induction n with
    | zero => decide
    | succ n ih =>
        rw [List.replicate_succ', ← List.append_assoc]
        exact (List.rdropWhile_concat_pos _ _ _ rfl).trans ih
  have habove : Path.above (Path.split (farDirectory n).bytes)
      = [Repository.name "v"] := by
    rw [split_farDirectory, Path.above_concat _ (by decide)]
    exact htrimmed n
  have hsteps : (farDirectory n).steps ≠ [] := by
    simp [Path.steps, split_farDirectory, List.filter_append, hv]
  have hdot : (farDirectory n).leadsWithDot = false := by
    simp [Path.leadsWithDot, split_farDirectory]
    decide
  rw [Path.parent?_of_plain rfl hdot, if_neg hsteps, habove]
  rfl

/-- The file far down is in that directory. -/
private theorem parent?_farFile (n : Nat) :
    (farFile n).parent? = some (farDirectory n) := by
  have hx : Path.split (Repository.name "x.rs")
    = [Repository.name "x.rs"] := by decide
  have hsplit : Path.split (farFile n).bytes
      = Path.split (farDirectory n).bytes ++ [Repository.name "x.rs"] := by
    rw [farFile, Path.split_append_slash, hx]
  have hsteps : (farFile n).steps ≠ [] := by
    have hname : Path.isVoid (Repository.name "x.rs") = false := by decide
    simp [Path.steps, hsplit, List.filter_append, hname]
  have hdot : (farFile n).leadsWithDot = false := by
    simp [Path.leadsWithDot, hsplit, split_farDirectory]
    decide
  have habove : Path.above (Path.split (farFile n).bytes)
      = Path.split (farDirectory n).bytes := by
    rw [hsplit, Path.above_concat _ (by decide), split_farDirectory]
    exact List.rdropWhile_concat_neg _ _ _ (by decide)
  rw [Path.parent?_of_plain rfl hdot, if_neg hsteps, habove,
    Path.unsplit_split]

/-- Each slash makes its spelling longer. -/
theorem length_farDirectory (n : Nat) :
    (farDirectory n).bytes.length = n + 3 := by
  have hv : (Repository.name "v").length = 1 := by decide
  have hw : (Repository.name "w").length = 1 := by decide
  simp [farDirectory, hv, hw]
  omega

/-- The file's path is longer by its name. -/
theorem length_farFile (n : Nat) : (farFile n).bytes.length = n + 8 := by
  have hx : (Repository.name "x.rs").length = 4 := by decide
  simp [farFile, length_farDirectory, hx]

/-- Three directories enclose the file far down. -/
theorem enclosing_farFile (n : Nat) :
    (farFile n).enclosing = [farDirectory n, ⟨Repository.name "v"⟩, ⟨[]⟩] := by
  have hv : Path.parent? ⟨Repository.name "v"⟩ = some ⟨[]⟩ := by decide
  have hnil : Path.parent? ⟨[]⟩ = none := by decide
  rw [Path.enclosing, length_farFile]
  simp only [Path.enclosingUpTo, parent?_farFile,
    parent?_farDirectory, hv, hnil]

/-- The path of the marker may be too long to be asked with, and then the
marker is not seen. -/
private theorem holds_farDirectory {n : Nat} (hn : Tree.pathLimit ≤ n + 23)
    (c : Bytes) :
    OptOut.holds ⟨Path.ofString "/r", Config.defaultMarker⟩ (markedFiles c)
        (farDirectory n)
      = false := by
  have hmarker : (Path.ofText Config.defaultMarker).bytes.length
    = 17 := by decide
  have hr : (Path.ofString "/r").bytes.length = 2 := by decide
  have hdirectory : ((Path.ofString "/r").join (farDirectory n)).bytes.length
      = n + 6 := by
    change ((Path.ofString "/r").bytes ++ Path.slash
        :: (farDirectory n).bytes).length = _
    rw [List.length_append, List.length_cons, hr, length_farDirectory]
    omega
  have hlong :=
    Path.length_le_join (p := (Path.ofString "/r").join (farDirectory n))
      (q := Path.ofText Config.defaultMarker) (by decide)
  rw [hmarker, hdirectory] at hlong
  unfold OptOut.holds Tree.leadsTo
  split
  · rename_i l hl
    have hshort : (((Path.ofString "/r").join (farDirectory n)).join
        (Path.ofText Config.defaultMarker)).bytes.length < Tree.pathLimit :=
      (Tree.locate_eq_ok_iff.1 hl).short
    omega
  · rfl

/-- None of the directories that the path spells is found to have the
marker. -/
theorem holds_of_mem_enclosing_farFile {n : Nat} (hn : Tree.pathLimit ≤ n + 23)
    (c : Bytes) {dir : Path} (hdir : dir ∈ (farFile n).enclosing) :
    OptOut.holds ⟨Path.ofString "/r", Config.defaultMarker⟩ (markedFiles c) dir
      = false := by
  rw [enclosing_farFile] at hdir
  simp only [List.mem_cons, List.not_mem_nil, or_false] at hdir
  rcases hdir with rfl | rfl | rfl
  · exact holds_farDirectory hn c
  · exact Tree.leadsTo_eq_of_locateWithin 5 rfl
  · exact Tree.leadsTo_eq_of_locateWithin 5 rfl

/-- Slashes in a row make no components. -/
private theorem components_farDirectory (n : Nat) : (farDirectory n).components
    = [.name (Repository.name "v"), .name (Repository.name "w")] := by
  have hv : Path.isVoid (Repository.name "v") = false := by decide
  have hw : Path.isVoid (Repository.name "w") = false := by decide
  have hempty : Path.isVoid [] = true := rfl
  have hsteps : (farDirectory n).steps
      = [Repository.name "v", Repository.name "w"] := by
    simp [Path.steps, split_farDirectory, List.filter_append, hv, hw, hempty]
  have habs : (farDirectory n).isAbsolute = false := rfl
  have hdot : (farDirectory n).leadsWithDot = false := by
    simp [Path.leadsWithDot, split_farDirectory]
    decide
  rw [Path.components_eq, hsteps, Path.lead, habs, hdot]
  decide

/-- What is remembered after a question with such a path. -/
private theorem memo_farFile {n : Nat} (hn : Tree.pathLimit ≤ n + 23)
    (c : Bytes) :
    (OptOut.ask ⟨Path.ofString "/r", Config.defaultMarker⟩ (markedFiles c)
        [] (farFile n)).memo
      = [([], false), ([.name (Repository.name "v")], false),
        ([.name (Repository.name "v"), .name (Repository.name "w")],
          false)] := by
  have hholds := fun dir (hdir : dir ∈ (farFile n).enclosing) =>
    holds_of_mem_enclosing_farFile hn c hdir
  rw [enclosing_farFile] at hholds
  have hfar := hholds _ (.head _)
  have hnear := hholds _ (.tail _ (.head _))
  have hroot := hholds _ (.tail _ (.tail _ (.head _)))
  have hv : Path.components ⟨Repository.name "v"⟩
    = [.name (Repository.name "v")] := by decide
  have hempty : Path.components ⟨[]⟩ = [] := by decide
  simp [OptOut.ask, enclosing_farFile, OptOut.firstOf, List.lookup_cons,
    List.lookup_nil, components_farDirectory, hv, hempty, hfar, hnear, hroot]

/-- A directory that was asked about with a path that was too long is
remembered as one without the marker. -/
theorem not_forall_memory_unseen :
    ¬∀ (o : OptOut) (t : Tree) (earlier : List Path) (p : Path),
      (o.ask t (o.memoAfter (earlier.map (⟨t, ·⟩))) p).decider
        = p.enclosing.find? (o.holds t) := by
  intro h
  have hsame := h ⟨Path.ofString "/r", Config.defaultMarker⟩ (markedFiles [])
    [farFile 4096]
    (Path.ofString "v/w/x.rs")
  have hholds : OptOut.holds ⟨Path.ofString "/r", Config.defaultMarker⟩
        (markedFiles []) (Path.ofString "v/w")
      = true :=
    Tree.leadsTo_eq_of_locateWithin 5 rfl
  have henclosing : (Path.ofString "v/w/x.rs").enclosing
      = [Path.ofString "v/w", Path.ofString "v", ⟨[]⟩] := by decide
  rw [List.map_singleton, OptOut.memoAfter, List.foldl_cons, List.foldl_nil,
    memo_farFile (by decide), OptOut.ask, henclosing,
    List.find?_cons_of_pos hholds] at hsame
  cases hsame

end CopyrightNotice
