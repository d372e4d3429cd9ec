/-
What a run does not depend on: the content of the files that it skips.

Two runs over the same paths begin with trees that differ in what some files
hold, and none of these files is looked into (`Hidden`): they are below a
directory with the marker, or of no known kind, or not listed. At every
point the two trees then differ at most at those files, and all else is the
same in both sessions (`InStep`). The filters ask about the shape of the
tree only, and turn down each of the hidden files they are asked about
(`both_processFile`); what is judged is the same text in both runs, and a
job that does not look into files goes on in step (`Blind`).
-/
import CopyrightNotice.Proofs.Run.Step
import CopyrightNotice.Proofs.Selection.Recall
import CopyrightNotice.Proofs.Selection.Shelter

namespace CopyrightNotice

open CopyrightNotice.Tree (Alike Grown)

-- =============================================================== in step

/-- Two sessions on their way. The first began with `tree`, and the trees of
the two differ at most at the given places. -/
structure InStep (o : OptOut) (tree : Tree) (differs : Location → Prop)
    (s u : Session) :
    Prop where
  alike : Alike s.tree u.tree
  differ : ∀ l, s.tree.entry? l ≠ u.tree.entry? l → differs l
  grown : Grown tree s.tree
  honest : o.Honest tree s.memo
  memo : s.memo = u.memo
  reports : s.reports = u.reports
  events : s.events = u.events
  writes : s.writes = u.writes

/-- Two jobs that end in the same way, in sessions that stand in a relation. -/
inductive Both (R : Session → Session → Prop) {α : Type} :
    EStateM.Result Failure Session α → EStateM.Result Failure Session α → Prop
  | ok {a s u} (h : R s u) : Both R (.ok a s) (.ok a u)
  | error {failure s u} (h : R s u) :
      Both R (.error failure s) (.error failure u)

namespace Job

variable {α β : Type} {R : Session → Session → Prop} {j : Job α}
  {k : α → Job β} {s u : Session}

/-- Runs that stay in step are continued in step. -/
theorem both_bind (hj : Both R (j s) (j u))
    (hk : ∀ a s u, R s u → Both R (k a s) (k a u)) :
    Both R ((j >>= k) s) ((j >>= k) u) := by
  generalize hs : j s = r at hj
  generalize hu : j u = r' at hj
  cases hj with
  | ok h =>
      rw [bind_of_ok hs, bind_of_ok hu]
      exact hk _ _ _ h
  | error h =>
      rw [bind_of_error hs, bind_of_error hu]
      exact .error h

/-- A job that keeps sessions in step. -/
def Blind (R : Session → Session → Prop) (j : Job α) : Prop :=
  ∀ s u, R s u → Both R (j s) (j u)

theorem blind_pure (a : α) : Blind R (pure a) := fun _ _ h => .ok h

theorem blind_bind (hj : Blind R j) (hk : ∀ a, Blind R (k a)) :
    Blind R (j >>= k) :=
  fun s u h => both_bind (hj s u h) hk

variable {o : OptOut} {tree : Tree} {differs : Location → Prop}

theorem blind_say (e : Event) :
    Blind (InStep o tree differs) (say e) := fun _ _ h =>
  .ok ⟨h.alike, h.differ, h.grown, h.honest, h.memo, h.reports,
    congrArg (· ++ [e]) h.events, h.writes⟩

/-- A write is blind: it fails or succeeds in both trees alike. -/
theorem blind_change (failure : Fault → Failure) (w : Write) :
    Blind (InStep o tree differs) (change failure w) := by
  intro s u h
  rcases w.apply_alike h.alike with ⟨fault, hs, hu⟩ | ⟨s', u', hs, hu, halike,
    hgrown, hdiffer⟩
  · rw [change_of_error hs, change_of_error hu]
    exact .error h
  · rw [change_of_ok hs, change_of_ok hu]
    exact .ok ⟨halike, fun l hl => h.differ l (hdiffer l hl),
      h.grown.trans hgrown, h.honest, h.memo, h.reports, h.events,
      congrArg (· ++ [w]) h.writes⟩

end Job

-- ================================================================ hidden

namespace Task

/-- The file at `l` is none that a run over the paths looks into. -/
inductive Hidden (t : Task) (tree : Tree) (paths : List Path)
    (l : Location) : Prop
  /-- A directory below the root, in which the file is, holds the marker. -/
  | sheltered {b d : Location} (base : tree.base t.root = .ok b)
      (below : b <+: d)
      (above : d <+: l) (proper : d ≠ l)
      (marker : ({ tree with here := d } : Tree).leadsTo (Path.ofText t.marker)
        = true) :
      Hidden t tree paths l
  /-- The file is no known kind of text. -/
  | unknown (kind : ∀ p ∈ paths, ∀ c, tree.NamesFile (t.root.join p) l c →
        t.resolver p = none) :
      Hidden t tree paths l
  | unlisted
      (unnamed : ∀ p ∈ paths, ∀ c, ¬tree.NamesFile (t.root.join p) l c) :
      Hidden t tree paths l

variable {t : Task} {tree : Tree} {differs : Location → Prop} {path : Path}
  {paths : List Path} {s u : Session}

/-- To settle a judgement is blind. -/
private theorem blind_settle (old : Text) (new? : Option Text) :
    Job.Blind (InStep t.selection.optOut tree differs)
      (t.settle path old new?) := by
  unfold settle
  cases new? with
  | none => exact Job.blind_pure _
  | some new =>
      dsimp only
      split
      · rw [Preview.record_eq]
        refine Job.blind_bind ?_ fun _ => ?_
        · unfold Preview.show?
          split
          · exact Job.blind_say _
          · exact Job.blind_pure _
        · unfold Preview.save?
          split
          · exact Job.blind_pure _
          · exact Job.blind_change _ _
      · exact Job.blind_change _ _

/-- Files that hold the same are judged in step. -/
private theorem both_judge {format : CommentFormat}
    (h : InStep t.selection.optOut tree differs s u)
    (htext : s.tree.textAt (t.root.join path)
      = u.tree.textAt (t.root.join path)) :
    Both (InStep t.selection.optOut tree differs) (t.judge path format s)
      (t.judge path format u) := by
  cases hs : s.tree.textAt (t.root.join path) with
  | error failure =>
      rw [judge_of_error hs, judge_of_error (htext.symm.trans hs)]
      exact .error h
  | ok text =>
      rw [judge_of_text hs, judge_of_text (htext.symm.trans hs)]
      refine Job.blind_bind (blind_settle _ _) (fun _ =>
          Job.blind_bind (Job.blind_say _) fun _ => Job.blind_pure _) _ _ ?_
      exact ⟨h.alike, h.differ, h.grown, h.honest, h.memo, h.reports,
        congrArg (· ++ _) h.events, h.writes⟩

section Listed

variable (ht : tree.NoDirectoryLinks) (hpath : path ∈ paths)
  (hshort : ∀ dir ∈ path.enclosing,
    (t.selection.optOut.markerIn dir).bytes.length < Tree.pathLimit)

include hshort in
/-- The directories above a file that exists can be asked for their markers. -/
theorem askable_of_mem_enclosing {u : Tree} {l : Location} {c : Bytes}
    (hnames : u.NamesFile (t.root.join path) l c) :
    ∀ dir ∈ path.enclosing, t.selection.optOut.Askable dir := by
  intro dir hdir
  refine ⟨hshort dir hdir, fun hmem => ?_⟩
  have hbytes := (Path.prefix_of_mem_enclosing hdir).subset hmem
  exact (Tree.locate_eq_ok_iff.1 hnames.located).noNul
    ((Path.suffix_join _ _).subset hbytes)

include ht hpath hshort in
/-- No file behind an open entrance is hidden. -/
private theorem not_hidden_of_entrance {format : CommentFormat} {s' : Session}
    {l : Location} {c : Bytes} (hgrown : Grown tree s.tree)
    (hhonest : t.selection.optOut.Honest tree s.memo)
    (h : t.entrance path s = .ok (.ok format) s')
    (hnames : s.tree.NamesFile (t.root.join path) l c)
    (hl : tree.entry? l ≠ none) : ¬t.Hidden tree paths l := by
  obtain ⟨-, hdecider, found, hfound, -⟩ := open_of_entrance h
  obtain ⟨d, hstart⟩ := hgrown.namesFile hnames hl
  intro hhidden
  cases hhidden with
  | sheltered base below above proper marker =>
      obtain ⟨dir, hdir, hreaches⟩ :=
        hstart.reaches_enclosing ht base below above proper
      exact OptOut.decider_ne_none ht hgrown hhonest (askable_of_mem_enclosing
        hshort hnames)
        hdir ⟨_, hreaches, marker⟩ hdecider
  | unknown kind =>
      rw [kind path hpath d hstart] at hfound
      cases hfound
  | unlisted unnamed => exact unnamed path hpath d hstart

include ht hpath hshort in
/-- One file keeps two runs in step, hidden or not. -/
private theorem both_processFile
    (h : InStep t.selection.optOut tree differs s u)
    (hdiffers : ∀ l, differs l →
      tree.entry? l ≠ none ∧ t.Hidden tree paths l) :
    Both (InStep t.selection.optOut tree differs) (t.processFile path s)
      (t.processFile path u) := by
  obtain ⟨r, hr⟩ := t.asks_entrance path s.tree s.memo
  have hs := hr s (.refl _) rfl
  have hu := hr u h.alike h.memo.symm
  have hhonest : t.selection.optOut.Honest tree r.memo := by
    rcases memo_of_entrance hs with hmemo | ⟨⟨l, c, hnames⟩, hmemo⟩
    · exact (show r.memo = s.memo from hmemo) ▸ h.honest
    · rw [show r.memo = _ from hmemo]
      exact OptOut.honest_firstOf ht h.grown h.honest (askable_of_mem_enclosing
        hshort hnames)
  have hheard : InStep t.selection.optOut tree differs (s.hearing r)
      (u.hearing r) :=
    ⟨h.alike, h.differ, h.grown, hhonest, rfl, h.reports,
      congrArg (· ++ r.said) h.events, h.writes⟩
  cases hanswer : r.answer with
  | error reason =>
      rw [hanswer] at hs hu
      rw [processFile_of_closed hs, processFile_of_closed hu]
      exact .ok hheard
  | ok format =>
      rw [hanswer] at hs hu
      rw [processFile_of_open hs, processFile_of_open hu]
      obtain ⟨⟨l, c, hnames⟩, -⟩ := open_of_entrance hs
      refine both_judge hheard ?_
      -- a file that differs would be hidden, and the entrance closed
      have hsame : s.tree.entry? l = u.tree.entry? l := by
        by_contra hne
        obtain ⟨hold, hhidden⟩ := hdiffers l (h.differ l hne)
        exact not_hidden_of_entrance ht hpath hshort h.grown h.honest hs hnames
          hold hhidden
      have hnames' : u.tree.NamesFile (t.root.join path) l c :=
        ⟨h.alike.locate_eq .itself _ ▸ hnames.located, hsame ▸ hnames.file⟩
      exact hnames.textAt_eq hnames' h.alike.unreadable

end Listed

/-- By induction on the files still ahead. -/
private theorem both_processAll {ahead : List Path}
    (ht : tree.NoDirectoryLinks) (hpaths : ∀ p ∈ ahead, p ∈ paths)
    (hshort : ∀ p ∈ ahead, ∀ dir ∈ p.enclosing,
      (t.selection.optOut.markerIn dir).bytes.length < Tree.pathLimit)
    (hdiffers : ∀ l, differs l → tree.entry? l ≠ none ∧ t.Hidden tree paths l)
    (h : InStep t.selection.optOut tree differs s u) :
    Both (InStep t.selection.optOut tree differs) (t.processAll ahead s)
      (t.processAll ahead u) := by
  induction ahead generalizing s u with
  | nil => exact .ok h
  | cons path ahead ih =>
      refine Job.both_bind
        (both_processFile ht (hpaths path (List.mem_cons_self ..)) (hshort path
            (List.mem_cons_self ..)) h hdiffers) fun report s₁ u₁ h₁ => ?_
      have hnoted : InStep t.selection.optOut tree differs (s₁.noting report)
          (u₁.noting report) :=
        ⟨h₁.alike, h₁.differ, h₁.grown, h₁.honest, h₁.memo,
          congrArg (· ++ [report]) h₁.reports, h₁.events, h₁.writes⟩
      change Both _ ((t.processAll ahead >>= fun failed =>
          pure (t.check && report.isNonCompliant || failed))
            (s₁.noting report))
        ((t.processAll ahead >>= fun failed =>
          pure (t.check && report.isNonCompliant || failed))
            (u₁.noting report))
      exact Job.both_bind
          (ih (fun p hp => hpaths p (List.mem_cons_of_mem _ hp)) (fun p hp =>
              hshort p (List.mem_cons_of_mem _ hp)) hnoted) fun failed =>
          Job.blind_pure (t.check && report.isNonCompliant || failed)

end Task

-- ================================================================ result

/-- Two runs that nobody can tell apart who does not look into the files: by
their outcome, the reports, what was said, and the files that were written. -/
structure Indistinct {α : Type} (r r' : EStateM.Result Failure Session α) :
    Prop where
  outcome : Job.outcome r = Job.outcome r'
  reports : (Job.left r).reports = (Job.left r').reports
  events : (Job.left r).events = (Job.left r').events
  writes : (Job.left r).writes = (Job.left r').writes

/-- From runs in step nobody can tell the trees apart. -/
private theorem Both.indistinct {o : OptOut} {tree : Tree}
    {differs : Location → Prop} {α : Type}
    {r r' : EStateM.Result Failure Session α}
    (h : Both (InStep o tree differs) r r') : Indistinct r r' := by
  cases h with
  | ok h => exact ⟨rfl, h.reports, h.events, h.writes⟩
  | error h => exact ⟨rfl, h.reports, h.events, h.writes⟩

/-- Over paths that are not too long for the marker to be asked for, the
content of hidden files does not matter to a run, whatever it is to do. -/
theorem hidden_content_never_matters (t : Task) (tree tree' : Tree)
    (paths : List Path) (halike : Alike tree tree')
    (hlinks : tree.NoDirectoryLinks)
    (hhidden : ∀ l, tree.entry? l ≠ tree'.entry? l → t.Hidden tree paths l)
    (hshort : ∀ p ∈ paths, ∀ dir ∈ p.enclosing,
      (t.selection.optOut.markerIn dir).bytes.length < Tree.pathLimit) :
    Indistinct ((t.processFiles paths).run { tree })
      ((t.processFiles paths).run { tree := tree' }) := by
  have hstart : InStep t.selection.optOut tree
      (fun l => tree.entry? l ≠ tree'.entry? l) { tree } { tree := tree' } :=
    ⟨halike, fun _ hl => hl, .refl tree, OptOut.honest_nil _ _, rfl,
      rfl, rfl, rfl⟩
  have hdiffers : ∀ l, tree.entry? l ≠ tree'.entry? l →
      tree.entry? l ≠ none ∧ t.Hidden tree paths l := by
    refine fun l hl => ⟨fun hnone => hl ?_, hhidden l hl⟩
    rw [hnone, halike.none_iff.1 hnone]
  have hall :=
    Task.both_processAll hlinks (fun _ hp => hp) hshort hdiffers hstart
  exact (Job.both_bind hall fun failed =>
    Job.blind_bind (Job.blind_say _) fun _ => Job.blind_pure _).indistinct

theorem alike_markedFiles (c d : Bytes) :
    Alike (markedFiles c) (markedFiles d) :=
  (Alike.refl _).set (by simp) c d

/-- The marked trees have no links. -/
theorem noDirectoryLinks_markedFiles (c : Bytes) :
    (markedFiles c).NoDirectoryLinks := by
  refine Tree.noDirectoryLinks_of_entries ?_
  simp [markedFiles, Tree.set]

/-- The file is the only one that differs, and is hidden. -/
theorem hidden_markedFiles (t : Task) (hroot : t.root = Path.ofString "/r")
    (hmarker : t.marker = Config.defaultMarker) (c d : Bytes)
    (paths : List Path) (l : Location)
    (hl : Tree.entry? (markedFiles c) l ≠ Tree.entry? (markedFiles d) l) :
    t.Hidden (markedFiles c) paths l := by
  have hplace : l
      = [Repository.name "r", Repository.name "v", Repository.name "w",
        Repository.name "x.rs"] := by
    by_contra hne
    exact hl ((Tree.entry?_set_of_ne _ _ hne).trans
      (Tree.entry?_set_of_ne _ _ hne).symm)
  subst hplace
  have hbase : (markedFiles c).base t.root = .ok [Repository.name "r"] := by
    rw [hroot, Tree.base, Tree.locate_eq_of_locateWithin 2 rfl]
    rfl
  refine .sheltered hbase (d := [Repository.name "r", Repository.name "v",
    Repository.name "w"])
    (by decide) (by decide) (by decide) ?_
  rw [hmarker]
  exact Tree.leadsTo_eq_of_locateWithin 2 rfl

theorem hidden_content_of_marked_files :
    let t : Task :=
      { root := Path.ofString "/r", check := false
        notice :=
        ⟨["Copyright (c) 2024 A".toList], by simp, by decide, by decide⟩ }
    let text := Utf8.encode "fn main() {}\n".toList
    let paths := [Path.ofString "v/w/x.rs"]
    Alike (markedFiles text) (markedFiles [0xFF])
      ∧ (markedFiles text).NoDirectoryLinks
      ∧ (∀ l, Tree.entry? (markedFiles text) l ≠ Tree.entry?
      (markedFiles [0xFF]) l → t.Hidden (markedFiles text) paths l)
      ∧ (∀ p ∈ paths, ∀ dir ∈ p.enclosing,
          (t.selection.optOut.markerIn dir).bytes.length < Tree.pathLimit)
      ∧ Indistinct ((t.processFiles paths).run { tree := markedFiles text })
          ((t.processFiles paths).run { tree := markedFiles [0xFF] }) := by
  intro t text paths
  have halike := alike_markedFiles text [0xFF]
  have hlinks := noDirectoryLinks_markedFiles text
  have hhidden := hidden_markedFiles t rfl rfl text [0xFF] paths
  have hshort : ∀ p ∈ paths, ∀ dir ∈ p.enclosing,
      (t.selection.optOut.markerIn dir).bytes.length
      < Tree.pathLimit := by decide
  exact ⟨halike, hlinks, hhidden, hshort,
    hidden_content_never_matters t _ _ paths halike hlinks hhidden hshort⟩

-- ========================================================= paths too long

theorem join_farFile (n : Nat) : (Path.ofString "/r").join (farFile n)
    = ⟨(Path.ofString "/r").bytes ++ Path.slash :: (farFile n).bytes⟩ := rfl

/-- Slashes in a row are not part of what is spelled. -/
private theorem spelled_farFile (n : Nat) : (farFile n).spelled
    = [Repository.name "v", Repository.name "w", Repository.name "x.rs"] := by
  have hx : Path.spelled ⟨Repository.name "x.rs"⟩
    = [Repository.name "x.rs"] := by decide
  have hv : Repository.name "v" ≠ [] := by decide
  have hw : Repository.name "w" ≠ [] := by decide
  have hdirectory : (farDirectory n).spelled
      = [Repository.name "v", Repository.name "w"] := by
    simp [Path.spelled, split_farDirectory, List.filter_append, hv, hw]
  rw [farFile, Path.spelled_append_slash, hx]
  exact congrArg (· ++ _) hdirectory

/-- A walk takes the four names, and no slash. -/
private theorem parts_join_farFile (n : Nat) :
    Tree.parts ((Path.ofString "/r").join (farFile n))
      = [Repository.name "r", Repository.name "v", Repository.name "w",
        Repository.name "x.rs"] := by
  have hr : (Path.ofString "/r").spelled = [Repository.name "r"] := by decide
  have hlast : (farFile n).bytes.getLast? ≠ some Path.slash := by
    have hx : (Repository.name "x.rs").getLast? = some 0x73 := by decide
    simp [farFile, List.getLast?_append, List.getLast?_cons, hx, Path.slash]
  rw [Tree.parts_join rfl (by simp [farFile]), hr, Tree.parts_eq, if_neg hlast,
    spelled_farFile]
  rfl

/-- No zero byte is in the file's path. -/
private theorem not_nul_farFile (n : Nat) :
    (0 : UInt8) ∉ (farFile n).bytes := by
  have hv : (0 : UInt8) ∉ Repository.name "v" := by decide
  have hw : (0 : UInt8) ∉ Repository.name "w" := by decide
  have hx : (0 : UInt8) ∉ Repository.name "x.rs" := by decide
  simp [farFile, farDirectory, Path.slash, hv, hw, hx]

/-- The path names the file in the directory with the marker, as long as it may
be asked about at all. -/
theorem namesFile_farFile {n : Nat} (hn : n + 11 < Tree.pathLimit)
    (c : Bytes) :
    (markedFiles c).NamesFile ((Path.ofString "/r").join (farFile n))
      [Repository.name "r", Repository.name "v", Repository.name "w",
        Repository.name "x.rs"] c := by
  refine ⟨Tree.locate_eq_ok_iff.2 ⟨?_, ?_, ?_, ?_⟩,
    Tree.entry?_set_self _ _ (by simp)⟩
  · intro hmem
    rcases Path.mem_join hmem with hmem | hmem | hmem
    · exact absurd hmem (by decide)
    · exact not_nul_farFile n hmem
    · cases hmem
  · simp [join_farFile]
  · have hr : (Path.ofString "/r").bytes.length = 2 := by decide
    rw [join_farFile, List.length_append, List.length_cons, hr, length_farFile]
    omega
  · rw [parts_join_farFile]
    refine Tree.arrives_of_walk ?_
    change (markedFiles c).walk .itself Tree.maxLinks [] _ = _
    exact Tree.walk_eq_of_walkWithin 5 rfl

/-- A check that takes every file for a program. -/
def programCheck : Task :=
  { root := Path.ofString "/r", check := true
    resolver := fun _ => some ⟨"rs".toList, .led "//", false⟩
    notice :=
      ⟨["Copyright (c) 2024 A".toList], by simp, by decide, by decide⟩ }

section Far

variable {n : Nat} (hnear : n + 11 < Tree.pathLimit)
  (hfar : Tree.pathLimit ≤ n + 23)

include hnear in
/-- The file far down is read, by a path that is still short enough. -/
theorem read_farFile (c : Bytes) :
    (markedFiles c).read (programCheck.root.join (farFile n)) = .ok c :=
  (namesFile_farFile hnear c).read_eq

include hfar in
/-- None of the directories that the path spells is found to have the
marker. -/
private theorem decider_farFile (c : Bytes) :
    (programCheck.selection.optOut.ask (markedFiles c) [] (farFile n)).decider
      = none := by
  have hanswers :=
    (OptOut.recalls_nil programCheck.selection.optOut).answers (markedFiles c)
      (Path.pairwise_enclosing (farFile n))
  refine hanswers.decider.trans (List.find?_eq_none.2 fun dir hdir => ?_)
  exact Bool.eq_false_iff.1 (holds_of_mem_enclosing_farFile hfar c hdir)

include hnear hfar in
/-- The file is judged, in a session that has the tree as it was. -/
theorem processFile_farFile (c : Bytes) :
    ∃ (format : CommentFormat) (s : Session), s.tree = markedFiles c
      ∧ programCheck.processFile (farFile n) { tree := markedFiles c }
        = programCheck.judge (farFile n) format s := by
  obtain ⟨r, hr⟩ :=
    Task.entrance_of_open (t := programCheck) (s := { tree := markedFiles c })
      (namesFile_farFile hnear c) (decider_farFile hfar c) rfl
  exact ⟨_, _, rfl, Task.processFile_of_open hr⟩

include hnear hfar in
/-- A file that is no text stops the check. -/
private theorem outcome_farFile_of_broken {c : Bytes} {fault : Utf8.Fault}
    (hc : Utf8.decode c = .error fault) :
    Job.outcome
        ((programCheck.processFiles [farFile n]).run { tree := markedFiles c })
      = .error (.notText (programCheck.root.join (farFile n)) fault) := by
  obtain ⟨format, s, hs, hfile⟩ := processFile_farFile hnear hfar c
  have htext : s.tree.textAt (programCheck.root.join (farFile n))
      = .error (.notText (programCheck.root.join (farFile n)) fault) := by
    simp only [hs, Tree.textAt, read_farFile hnear, hc]
  rw [Task.judge_of_error htext] at hfile
  exact congrArg Job.outcome (Task.processFiles_of_error
    (Task.processAll_of_error hfile))

include hnear hfar in
/-- A text does not. -/
private theorem outcome_farFile_of_text {c : Bytes} {text : Text}
    (hc : Utf8.decode c = .ok text) :
    ∃ failed, Job.outcome
        ((programCheck.processFiles [farFile n]).run { tree := markedFiles c })
      = .ok failed := by
  obtain ⟨format, s, hs, hfile⟩ := processFile_farFile hnear hfar c
  have htext : s.tree.textAt (programCheck.root.join (farFile n))
      = .ok text := by
    simp only [hs, Tree.textAt, read_farFile hnear, hc]
  rw [Task.judge_check rfl rfl htext] at hfile
  have hall := @Task.processAll_of_ok programCheck _ [] _ _ _ hfile
  exact ⟨_, congrArg Job.outcome (Task.processFiles_of_ok hall)⟩

end Far

/-- A file in a directory with the marker is looked into if the path of the
marker is too long. -/
theorem not_forall_hidden_content_never_matters :
    ¬∀ (t : Task) (tree tree' : Tree) (paths : List Path), Alike tree tree' →
      tree.NoDirectoryLinks →
      (∀ l, tree.entry? l ≠ tree'.entry? l → t.Hidden tree paths l) →
      Indistinct ((t.processFiles paths).run { tree })
        ((t.processFiles paths).run { tree := tree' }) := by
  intro h
  -- so many slashes leave room for the file, but not for the marker
  obtain ⟨n, hnear, hfar⟩ : ∃ n, n + 11 < Tree.pathLimit
      ∧ Tree.pathLimit ≤ n + 23 :=
    ⟨4080, by decide, by decide⟩
  have hbroken : Utf8.decode [0xFF] = .error (.malformed 1 0) := by cbv
  have hempty : Utf8.decode [] = .ok [] := by cbv
  have hsame := (h programCheck _ _ [farFile n] (alike_markedFiles [0xFF] [])
    (noDirectoryLinks_markedFiles [0xFF])
    (hidden_markedFiles programCheck rfl rfl [0xFF] [] [farFile n])).outcome
  obtain ⟨failed, hfailed⟩ := outcome_farFile_of_text hnear hfar hempty
  rw [outcome_farFile_of_broken hnear hfar hbroken, hfailed] at hsame
  cases hsame

end CopyrightNotice
