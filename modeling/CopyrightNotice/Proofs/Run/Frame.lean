/-
What an update writes, and what it leaves alone, whether it gets through or
stops on its way.

At every point of an update the tree differs from the one it began with in
the files reported as inserted or replaced, and those hold the correction of
what they held at the beginning (`Written`). One file keeps this up
(`written_processFile`): its path names no file behind it, so what is read is
still the original. A file that stops the run is not written
(`stop_of_processFile`), and no file ahead of it has been.
-/
import CopyrightNotice.Proofs.Run.Agreement

namespace CopyrightNotice

open CopyrightNotice.Tree (Alike)

namespace Task

/-- The file that a path names, at `l`, has a header to be corrected by the
rules of the task, and `new` is the text with the correction. -/
def Corrects (t : Task) (tree : Tree) (path : Path) (l : Location)
    (new : Text) : Prop :=
  ∃ content old found regions, tree.NamesFile (t.root.join path) l content
    ∧ Utf8.decode content = .ok old ∧ t.resolver path = some found
    ∧ (Recognizer.ofNotice t.notice found.format).parse old = .ok regions
    ∧ (Recognizer.ofNotice t.notice found.format).correction? regions
    = some new

/-- What a session owes to an update that began with `tree`: the files that
its reports call rewritten hold their corrections, and nothing else is
different. -/
structure Written (t : Task) (tree : Tree) (u : Session) : Prop where
  alike : Alike tree u.tree
  changed : ∀ l, u.tree.entry? l ≠ tree.entry? l →
    ∃ r ∈ u.reports, r.status.IsRewrite ∧ ∃ new, t.Corrects tree r.path l new
  corrected : ∀ r ∈ u.reports, r.status.IsRewrite →
    ∃ l new, t.Corrects tree r.path l new
    ∧ u.tree.entry? l = some (.file (Utf8.encode new))

variable {t : Task} {tree : Tree} {path : Path} {u u' : Session}
  {report : FileReport}

namespace Written

/-- A file that no reported path names is as it was. -/
theorem entry_eq {place : Path} {l : Location} (h : Written t tree u)
    (hplace : tree.locate .itself place = .ok l)
    (hother : ∀ r ∈ u.reports, ∀ m c d,
      tree.NamesFile (t.root.join r.path) m c → ¬tree.NamesFile place m d) :
    u.tree.entry? l = tree.entry? l := by
  by_contra hne
  obtain ⟨r, hr, -, new, content, -, -, -, hnames, -⟩ := h.changed l hne
  exact hother r hr l content content hnames ⟨hplace, hnames.file⟩

/-- A report that nothing was written for. -/
theorem noting {r : FileReport} (h : Written t tree u)
    (hr : ¬r.status.IsRewrite) : Written t tree (u.noting r) where
  alike := h.alike
  changed l hl :=
    let ⟨r', hr', hrest⟩ := h.changed l hl
    ⟨r', List.mem_append_left _ hr', hrest⟩
  corrected r' hr' hstatus := by
    rcases List.mem_append.1 hr' with hr' | hr'
    · exact h.corrected r' hr' hstatus
    · rw [List.mem_singleton.1 hr'] at hstatus
      exact absurd hstatus hr

/-- A correction, if there is one, written to a file that no report so far is
about. -/
theorem rewriting {place : Path} {l : Location} {c : Bytes}
    {new? : Option Text} {status : FileStatus} (h : Written t tree u)
    (hnames : tree.NamesFile (t.root.join path) l c)
    (hother : ∀ r ∈ u.reports, ∀ m c d,
      tree.NamesFile (t.root.join r.path) m c →
      ¬tree.NamesFile (t.root.join path) m d)
    (hcorrects : ∀ new, new? = some new → t.Corrects tree path l new)
    (hstatus : status.IsRewrite ↔ ∃ new, new? = some new) :
    Written t tree ((u.rewriting place l new?).noting { path, status }) := by
  cases new? with
  | none => exact h.noting (by simp [hstatus])
  | some new =>
      have hnew := hcorrects new rfl
      have hfile : u.tree.entry? l = some (.file c) :=
        (h.entry_eq hnames.located hother).trans hnames.file
      refine ⟨h.alike.trans (Tree.alike_set hfile _), fun m hm => ?_,
        fun r hr hrewrite => ?_⟩
      · by_cases hml : m = l
        · rw [hml]
          exact ⟨_, List.mem_append_right _ (List.mem_singleton_self _),
            hstatus.2 ⟨new, rfl⟩, new, hnew⟩
        · obtain ⟨r, hr, hrest⟩ := h.changed m
            (fun heq => hm ((Tree.entry?_set_of_ne u.tree _ hml).trans heq))
          exact ⟨r, List.mem_append_left _ hr, hrest⟩
      · rcases List.mem_append.1 hr with hr | hr
        · obtain ⟨m, new', hcorrects', hm⟩ := h.corrected r hr hrewrite
          refine ⟨m, new', hcorrects', ?_⟩
          have hml : m ≠ l := by
            rintro rfl
            obtain ⟨content', -, -, -, hnames', -⟩ := hcorrects'
            exact hother r hr m content' c hnames' hnames
          exact (Tree.entry?_set_of_ne u.tree _ hml).trans hm
        · rw [List.mem_singleton.1 hr]
          exact ⟨l, new, hnew, Tree.entry?_set_self u.tree _ hnames.ne_nil⟩

end Written

/-- A text is corrected if its header is not current. -/
theorem isRewrite_iff (r : Recognizer) (p : Regions) :
    (FileStatus.ofVerdict false p.verdict).IsRewrite
      ↔ ∃ new, r.correction? p = some new := by
  unfold Recognizer.correction?
  cases p.verdict <;> simp [FileStatus.ofVerdict, FileStatus.IsRewrite]

section Update

variable (hcheck : t.check = false) (h : Written t tree u)
  (hother : ∀ r ∈ u.reports, ∀ m c d, tree.NamesFile (t.root.join r.path) m c →
    ¬tree.NamesFile (t.root.join path) m d)

include h hother in
/-- What the path names on the way, it named at the beginning. -/
theorem namesFile_start {l : Location} {c : Bytes}
    (hnames : u.tree.NamesFile (t.root.join path) l c) :
    tree.NamesFile (t.root.join path) l c := by
  have hlocated :=
    h.alike.locate_eq .itself (t.root.join path) ▸ hnames.located
  exact ⟨hlocated, (h.entry_eq hlocated hother).symm.trans hnames.file⟩

include hcheck h hother

/-- An update does with one file what `Written` asks for, if none of the files
behind is the same. -/
private theorem written_processFile
    (hfile : t.processFile path u = .ok report u') :
    Written t tree (u'.noting report) := by
  have hstep := @updateStep_processFile t path u hcheck
  rw [hfile] at hstep
  cases hstep with
  | skipped r =>
      exact Written.noting ⟨h.alike, h.changed, h.corrected⟩ (by
        simp [FileReport.skipped, FileStatus.IsRewrite])
  | @settled found text p l c r names format reads parses =>
      have hstart := namesFile_start h hother names
      have htold : Written t tree ((u.hearing r).telling path p.mismatch) :=
        ⟨h.alike, h.changed, h.corrected⟩
      have hdone := @Written.rewriting _ _ _ _ (t.root.join path) _ _ _ _ htold
        hstart hother
        (fun new hnew => ⟨c, text, found, p, hstart,
          names.decode_of_textAt reads, format, parses, hnew⟩)
        (isRewrite_iff _ _)
      exact ⟨hdone.alike, hdone.changed, hdone.corrected⟩

/-- A file that stops an update, other than by refusing to be written, could
not be read as text, and nothing was written for it. -/
private theorem stop_of_processFile {failure : Failure}
    (hfile : t.processFile path u = .error failure u')
    (hwrites : ∀ place fault, failure ≠ .writeFile place fault) :
    tree.textAt (t.root.join path) = .error failure ∧ u'.tree = u.tree
      ∧ u'.reports = u.reports := by
  have hstep := @updateStep_processFile t path u hcheck
  rw [hfile] at hstep
  cases hstep with
  | stopped r names cause =>
      have hstart := namesFile_start h hother names
      exact ⟨(hstart.textAt_eq names h.alike.unreadable).trans cause, rfl, rfl⟩
  | refused => exact absurd rfl (hwrites _ _)

end Update

/-- An update that gets through its paths has done for all of them what
`Written` asks for. -/
theorem written_processAll {paths : List Path} {failed : Bool}
    (hcheck : t.check = false) (h : Written t tree u)
    (hdifferent : tree.DifferentFiles
      ((u.reports.map FileReport.path ++ paths).map t.root.join))
    (hall : t.processAll paths u = .ok failed u') : Written t tree u' := by
  induction paths generalizing u failed with
  | nil =>
      cases hall
      exact h
  | cons path paths ih =>
      obtain ⟨report, u₁, failed', hfile, hrest, -⟩ := of_processAll_cons hall
      have hstep := written_processFile hcheck h
        (fun r hr =>
          (List.pairwise_append.1 (List.map_append ▸ hdifferent)).2.2 _
          (List.mem_map_of_mem (List.mem_map_of_mem hr)) _
          (List.mem_cons_self ..)) hfile
      have hkept := (t.keepsReports_processFile path).of_ok hfile
      refine ih hstep ?_ hrest
      have hreports : (u₁.noting report).reports = u.reports ++ [report] :=
        congrArg (· ++ [report]) hkept
      rw [hreports]
      simpa [t.processFile_path path hfile] using hdifferent

private theorem written_start (t : Task) (tree : Tree) :
    Written t tree { tree } where
  alike := .refl tree
  changed _ hl := absurd rfl hl
  corrected _ hr := absurd hr (List.not_mem_nil)

end Task

-- ============================================================== result

/-- How an update that began with `tree` ends. -/
inductive Task.Ends (t : Task) (tree : Tree) (paths : List Path) :
    EStateM.Result Failure Session Bool → Prop
  /-- It gets through all paths. -/
  | finished {u} (written : t.Written tree u)
      (all : u.reports.map FileReport.path = paths) :
      Ends t tree paths (.ok false u)
  /-- It stops at a file that cannot be read as text. What that path and those
  behind it name is as it was. -/
  | stopped {failure u before path after} (written : t.Written tree u)
      (split : paths = before ++ path :: after)
      (all : u.reports.map FileReport.path = before)
      (cause : tree.textAt (t.root.join path) = .error failure)
      (ahead : ∀ p ∈ path :: after, ∀ l,
        tree.locate .itself (t.root.join p) = .ok l →
        u.tree.entry? l = tree.entry? l) :
      Ends t tree paths (.error failure u)

/-- An update over paths that name different files, whose writes succeed,
whatever tree it begins with, writes exactly what it reports: the files called
inserted or replaced hold the corrections of what they held, and nothing else
is different. If it stops, the reports are those of the paths in front of the
file it stops at. -/
theorem update_writes_what_it_reports (t : Task) (tree : Tree)
    (paths : List Path)
    (hdifferent : tree.DifferentFiles (paths.map t.root.join))
    (hwrites : ({ t with check := false } : Task).WritesSucceed tree paths) :
    t.Ends tree paths
      ((({ t with check := false } : Task).processFiles paths).run
        { tree }) := by
  change t.Ends tree paths (t.asUpdate.processFiles paths { tree })
  have hstart := t.asUpdate.written_start tree
  cases hall : t.asUpdate.processAll paths { tree } with
  | ok failed u =>
      rw [Task.processFiles_of_ok hall]
      have hwritten := Task.written_processAll rfl hstart hdifferent hall
      obtain ⟨new, hnew, hpaths, hpassed⟩ := Task.processAll_ok hall
      obtain rfl : u.reports = new := hnew
      obtain rfl : failed = false := hpassed
      exact .finished ⟨hwritten.alike, hwritten.changed, hwritten.corrected⟩
        hpaths
  | error failure u =>
      rw [Task.processFiles_of_error hall]
      obtain ⟨before, path, after, failed, u₁, rfl, hbefore, hfile⟩ :=
        Task.processAll_eq_error_iff.1 hall
      rw [Tree.DifferentFiles, List.map_append,
        List.pairwise_append] at hdifferent
      obtain ⟨hfront, -, hcross⟩ := hdifferent
      have hwritten := Task.written_processAll rfl hstart hfront hbefore
      obtain ⟨new, hnew, hpaths, -⟩ := Task.processAll_ok hbefore
      obtain rfl : u₁.reports = new := hnew
      -- the paths so far name other files than those from here on
      have hother : ∀ p ∈ path :: after, ∀ r ∈ u₁.reports, ∀ m c d,
          tree.NamesFile (t.root.join r.path) m c →
          ¬tree.NamesFile (t.root.join p) m d := by
        intro p hp r hr
        have hmem : r.path ∈ before := hpaths ▸ List.mem_map_of_mem hr
        exact hcross _ (List.mem_map_of_mem hmem) _ (List.mem_map_of_mem hp)
      obtain ⟨hcause, htree, hreports⟩ := Task.stop_of_processFile rfl hwritten
        (hother path (List.mem_cons_self ..)) hfile fun place fault heq =>
          hwrites place fault u (Task.processFiles_of_error (heq ▸ hall))
      refine .stopped ⟨?_, ?_, ?_⟩ rfl (hreports ▸ hpaths) hcause
        fun p hp l hl => ?_
      · rw [htree]
        exact hwritten.alike
      · rw [htree, hreports]
        exact hwritten.changed
      · rw [htree, hreports]
        exact hwritten.corrected
      · rw [htree]
        exact hwritten.entry_eq hl (hother p hp)

/-- With a file that is no text among the others. -/
def brokenFiles : Tree :=
  mixedFiles.set [Repository.name "r", Repository.name "e.rs"] (.file [0xFF])

/-- The update stops at the fourth path, with the first file written. -/
theorem update_writes_broken_files :
    let t : Task :=
      { root := Path.ofString "/r", check := false
        notice := ⟨["Copyright (c) 2024 A".toList, "B".toList],
          by simp, by decide, by decide⟩ }
    let paths := ["a.rs", "b.rs", "d.rs", "e.rs", "c.rs"].map Path.ofString
    brokenFiles.DifferentFiles (paths.map t.root.join)
      ∧ ({ t with check := false } : Task).WritesSucceed brokenFiles paths
      ∧ t.Ends brokenFiles paths
        ((({ t with check := false } : Task).processFiles paths).run
          { tree := brokenFiles }) := by
  intro t paths
  have hdifferent : brokenFiles.DifferentFiles (paths.map t.root.join) := by
    refine Tree.differentFiles_of_locate (List.pairwise_map.1 ?_)
    have hplaces : ((["a.rs", "b.rs", "d.rs", "e.rs", "c.rs"].map
          Path.ofString).map (Path.ofString "/r").join).map
            (brokenFiles.locate .itself)
        = ["a.rs", "b.rs", "d.rs", "e.rs", "c.rs"].map fun name =>
          .ok [Repository.name "r", Repository.name name] := by cbv
    exact hplaces ▸ by decide
  have hwrites : ({ t with check := false } : Task).WritesSucceed brokenFiles
      paths := by
    have hend : Job.outcome
        ((({ t with check := false } : Task).processFiles paths).run
          { tree := brokenFiles })
        = .error (.notText (Path.ofString "/r/e.rs") (.malformed 1 0)) := by
      cbv
    exact Task.writesSucceed_of_outcome hend (by simp)
  exact ⟨hdifferent, hwrites,
    update_writes_what_it_reports t brokenFiles paths hdifferent hwrites⟩

end CopyrightNotice
