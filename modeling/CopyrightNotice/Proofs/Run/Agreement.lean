/-
A check foretells an update.

The two runs go over the same paths. The check sees the tree as it is from
first to last; the update sees a tree in which the files behind it may have
new content. That tree is alike, so the selection answers as in the check,
out of the same memory; and the files ahead still hold what they held,
because no path ahead names a file behind (`Twins`). So at each path the
two runs stop with one failure or report answering outcomes, if only the
update is not refused to write what it corrects (`twins_processFile`), and
with that to the end (`twins_processAll`).
-/
import CopyrightNotice.Proofs.Run.Step
import Mathlib

namespace CopyrightNotice

open CopyrightNotice.Tree (Alike)

-- ============================================================= outcomes

/-- What a check finds, and what an update of the same file comes to. -/
inductive FileStatus.Becomes : FileStatus → FileStatus → Prop
  | compliant : Becomes .compliant .compliant
  | missing : Becomes .missing .inserted
  | outOfDate : Becomes .outOfDate .replaced
  | skipped : Becomes .skipped .skipped

/-- The same verdict is reported by a check and acted on by an update. -/
private theorem FileStatus.becomes_ofVerdict (v : Verdict) :
    (ofVerdict true v).Becomes (ofVerdict false v) := by
  cases v
  · exact .compliant
  · exact .outOfDate
  · exact .missing

/-- Whether an outcome says that a file was written. -/
def FileStatus.IsRewrite (s : FileStatus) : Prop :=
  s = .inserted ∨ s = .replaced

/-- What a check calls non-compliant is what an update rewrites. -/
theorem FileStatus.Becomes.isNonCompliant_iff {s u : FileStatus}
    (h : s.Becomes u) : s.isNonCompliant = true ↔ u.IsRewrite := by
  cases h <;> simp [isNonCompliant, IsRewrite]

/-- The report of a check and that of an update about one file. -/
structure FileReport.Becomes (c u : FileReport) : Prop where
  path : c.path = u.path
  status : c.status.Becomes u.status
  reason : c.reason = u.reason

private theorem FileReport.becomes_skipped (path : Path) (reason : Text) :
    (skipped path reason).Becomes (skipped path reason) :=
  ⟨rfl, .skipped, rfl⟩

/-- A check finds something amiss exactly if the update writes something. -/
theorem FileReport.any_isNonCompliant_iff {cs us : List FileReport}
    (h : List.Forall₂ Becomes cs us) :
    cs.any isNonCompliant = true ↔ ∃ r ∈ us, r.status.IsRewrite := by
  induction h with
  | nil => simp
  | cons head _ ih =>
      rw [List.any_cons, Bool.or_eq_true, ih, isNonCompliant,
        head.status.isNonCompliant_iff]
      simp

/-- How a check and an update end that agree. -/
inductive Agree (root : Path) (tree : Tree) (paths : List Path) :
    EStateM.Result Failure Session Bool → EStateM.Result Failure Session Bool →
    Prop
  /-- Both get through all paths. -/
  | finished {failed s u} (kept : s.tree = tree ∧ s.writes = [])
      (all : s.reports.map FileReport.path = paths)
      (reports : List.Forall₂ FileReport.Becomes s.reports u.reports)
      (verdict : failed = true ↔ ∃ r ∈ u.reports, r.status.IsRewrite) :
      Agree root tree paths (.ok failed s) (.ok false u)
  /-- Both stop at one path, with one failure about the file there. -/
  | stopped {failure s u before path after}
      (kept : s.tree = tree ∧ s.writes = [])
      (split : paths = before ++ path :: after)
      (all : s.reports.map FileReport.path = before)
      (reports : List.Forall₂ FileReport.Becomes s.reports u.reports)
      (cause : tree.textAt (root.join path) = .error failure) :
      Agree root tree paths (.error failure s) (.error failure u)

-- ============================================================= the runs

namespace Task

/-- The task as a check that previews nothing. -/
def asCheck (t : Task) : Task := { t with check := true, preview := {} }

/-- The task as an update. -/
def asUpdate (t : Task) : Task := { t with check := false }

variable {t : Task} {tree : Tree} {path : Path} {ahead : List Path}
  {s u : Session}

/-- A check and an update on their way, with some paths ahead of both. -/
structure Twins (t : Task) (tree : Tree) (ahead : List Path)
    (s u : Session) : Prop where
  kept : s.tree = tree ∧ s.writes = []
  memo : u.memo = s.memo
  alike : Alike tree u.tree
  /-- No file ahead has been written. -/
  ahead : ∀ p ∈ ahead, ∀ l c, tree.NamesFile (t.root.join p) l c →
    u.tree.entry? l = some (.file c)
  reports : List.Forall₂ FileReport.Becomes s.reports u.reports

namespace Twins

theorem tail (h : Twins t tree (path :: ahead) s u) : Twins t tree ahead s u :=
  ⟨h.kept, h.memo, h.alike, fun p hp => h.ahead p (List.mem_cons_of_mem _ hp),
    h.reports⟩

theorem hearing {α : Type} (h : Twins t tree ahead s u) (r : Reply α) :
    Twins t tree ahead (s.hearing r) (u.hearing r) :=
  ⟨h.kept, rfl, h.alike, h.ahead, h.reports⟩

theorem telling (h : Twins t tree ahead s u) (path : Path)
    (m : Option Mismatch) :
    Twins t tree ahead (s.telling path m) (u.telling path m) :=
  ⟨h.kept, h.memo, h.alike, h.ahead, h.reports⟩

theorem stating (h : Twins t tree ahead s u) (path : Path) (c r : FileStatus) :
    Twins t tree ahead (s.stating path c) (u.stating path r) :=
  ⟨h.kept, h.memo, h.alike, h.ahead, h.reports⟩

/-- Reports of which one becomes the other keep them twins. -/
theorem noting {c r : FileReport} (h : Twins t tree ahead s u)
    (hr : c.Becomes r) : Twins t tree ahead (s.noting c) (u.noting r) :=
  ⟨h.kept, h.memo, h.alike, h.ahead, List.rel_append h.reports (.cons hr .nil)⟩

/-- The update writes a file that no path ahead names. -/
theorem rewriting {l : Location} {c : Bytes} {new? : Option Text}
    (h : Twins t tree (path :: ahead) s u)
    (hnames : tree.NamesFile (t.root.join path) l c)
    (hother : ∀ p ∈ ahead, ∀ m c d, tree.NamesFile (t.root.join path) m c →
      ¬tree.NamesFile (t.root.join p) m d) :
    Twins t tree ahead s (u.rewriting (t.root.join path) l new?) := by
  cases new? with
  | none => exact h.tail
  | some new =>
      have hfile := h.ahead path (List.mem_cons_self ..) l c hnames
      refine ⟨h.kept, h.memo, h.alike.trans (Tree.alike_set hfile _),
        ?_, h.reports⟩
      intro p hp m d hp'
      have hne : m ≠ l := by
        rintro rfl
        exact hother p hp m c d hnames hp'
      exact (Tree.entry?_set_of_ne u.tree _ hne).trans
        (h.tail.ahead p hp m d hp')

end Twins

/-- How a check and an update beside it fare at a path, with some more ahead
of both. -/
inductive TwinStep (t : Task) (tree : Tree) (path : Path) (ahead : List Path) :
    EStateM.Result Failure Session FileReport →
      EStateM.Result Failure Session FileReport → Prop
  /-- Both report an outcome. -/
  | reported {c r s u} (twins : Twins t tree ahead (s.noting c) (u.noting r)) :
      TwinStep t tree path ahead (.ok c s) (.ok r u)
  /-- Both stop, since the file cannot be read as text. -/
  | stopped {failure s u} (twins : Twins t tree ahead s u)
      (cause : tree.textAt (t.root.join path) = .error failure) :
      TwinStep t tree path ahead (.error failure s) (.error failure u)
  /-- The update may not write what the check finds amiss. -/
  | refused {c s u} :
      TwinStep t tree path ahead (.ok c s)
        (.error (.writeFile (t.root.join path) .denied) u)

/-- At the next path, the two runs get on or stop together, unless the update
is refused to write. -/
theorem twins_processFile (h : Twins t tree (path :: ahead) s u)
    (hother : ∀ p ∈ ahead, ∀ l c d, tree.NamesFile (t.root.join path) l c →
      ¬tree.NamesFile (t.root.join p) l d) :
    TwinStep t tree path ahead (t.asCheck.processFile path s)
      (t.asUpdate.processFile path u) := by
  obtain ⟨rfl, -⟩ := id h.kept
  obtain ⟨r, hr⟩ := t.asks_entrance path s.tree s.memo
  have hs : t.asCheck.entrance path s = .ok r.answer (s.hearing r) :=
    hr s (.refl _) rfl
  have hu : t.asUpdate.entrance path u = .ok r.answer (u.hearing r) :=
    hr u h.alike h.memo
  cases hanswer : r.answer with
  | error reason =>
      rw [hanswer] at hs hu
      rw [processFile_of_closed hs, processFile_of_closed hu]
      exact .reported ((h.tail.hearing r).noting
        (FileReport.becomes_skipped path reason))
  | ok format =>
      rw [hanswer] at hs hu
      rw [processFile_of_open hs, processFile_of_open hu]
      obtain ⟨⟨l, c, hnames⟩, -⟩ := open_of_entrance hs
      -- the file ahead is the same in both trees, so both read one text
      have hnames' : u.tree.NamesFile (t.root.join path) l c :=
        ⟨h.alike.locate_eq .itself _ ▸ hnames.located,
          h.ahead path (List.mem_cons_self ..) l c hnames⟩
      have htext := hnames.textAt_eq hnames' h.alike.unreadable
      cases hread : s.tree.textAt (t.root.join path) with
      | error failure =>
          rw [@judge_of_error t.asCheck path format (s.hearing r) failure
            hread, @judge_of_error t.asUpdate path format (u.hearing r) failure
            (htext.symm.trans hread)]
          exact .stopped (h.tail.hearing r) hread
      | ok text =>
          have hread' : u.tree.textAt (t.root.join path) = .ok text :=
            htext.symm.trans hread
          rw [@judge_check t.asCheck path format (s.hearing r) text
            rfl rfl hread]
          by_cases hdenied : l ∈ u.tree.unwritable
              ∧ ∃ new, (Recognizer.ofNotice t.notice format).correction?
                ((Recognizer.ofNotice t.notice format).regions text) = some new
          · obtain ⟨hdenied, new, hnew⟩ := hdenied
            rw [@judge_update_of_denied t.asUpdate path format (u.hearing r)
              text l c new rfl hnames' hdenied hread' hnew]
            exact .refused
          · rw [@judge_update t.asUpdate path format (u.hearing r) text l c rfl
              hnames' hread' fun hnew hl => hdenied
                ⟨hl, Option.ne_none_iff_exists'.1 hnew⟩]
            refine .reported
              (Twins.noting ?_ ⟨rfl, FileStatus.becomes_ofVerdict _, rfl⟩)
            refine Twins.stating ?_ path _ _
            exact ((h.hearing r).telling path _).rewriting hnames hother

/-- Where the check gets through, so does the update, unless it is refused to
write. -/
theorem twins_processAll {paths : List Path} {failed : Bool} {s' : Session}
    (h : Twins t tree (paths ++ ahead) s u)
    (hdifferent : tree.DifferentFiles ((paths ++ ahead).map t.root.join))
    (hwrites : ∀ place fault u', t.asUpdate.processAll paths u
      ≠ .error (.writeFile place fault) u')
    (hs : t.asCheck.processAll paths s = .ok failed s') :
    ∃ failed' u', t.asUpdate.processAll paths u = .ok failed' u'
      ∧ Twins t tree ahead s' u' := by
  induction paths generalizing s u failed with
  | nil =>
      cases hs
      exact ⟨false, u, rfl, h⟩
  | cons path paths ih =>
      rw [List.cons_append, List.map_cons, Tree.DifferentFiles,
        List.pairwise_cons] at hdifferent
      obtain ⟨hother, hdifferent⟩ := hdifferent
      obtain ⟨c, s₁, failed₁, hfile, hall, -⟩ := of_processAll_cons hs
      have hstep :=
        twins_processFile h fun p hp => hother _ (List.mem_map_of_mem hp)
      rw [hfile] at hstep
      generalize hr : t.asUpdate.processFile path u = result at hstep
      cases hstep with
      | refused => exact absurd (processAll_of_error hr) (hwrites _ _ _)
      | @reported c r s₁ u₁ htwins =>
          -- a refusal further on would be one of the whole run
          obtain ⟨failed₂, u₂, hu₂, h₂⟩ := ih htwins hdifferent
            (fun place fault u' hu' => hwrites place fault u'
              (by rw [processAll_of_ok hr, hu'])) hall
          exact ⟨_, u₂, by rw [processAll_of_ok hr, hu₂], h₂⟩

private theorem twins_start (t : Task) (tree : Tree) (paths : List Path) :
    Twins t tree paths { tree } { tree } :=
  ⟨⟨rfl, rfl⟩, rfl, .refl tree, fun _ _ _ _ h => h.file, .nil⟩

end Task

-- ============================================================== result

/-- From one tree, over paths that name different files, a check and an
update whose writes succeed agree: both stop at one path with one failure,
or both get through with outcomes that answer each other. The check tells
in advance whether the update writes anything, and changes nothing. -/
theorem check_agrees_with_update (t : Task) (tree : Tree) (paths : List Path)
    (hdifferent : tree.DifferentFiles (paths.map t.root.join))
    (hwrites : ({ t with check := false } : Task).WritesSucceed tree paths) :
    Agree t.root tree paths
      ((({ t with check := true, preview := {} } : Task).processFiles
        paths).run { tree })
      ((({ t with check := false } : Task).processFiles paths).run
        { tree }) := by
  change Agree t.root tree paths (t.asCheck.processFiles paths { tree })
    (t.asUpdate.processFiles paths { tree })
  change t.asUpdate.WritesSucceed tree paths at hwrites
  have hstart := t.twins_start tree paths
  cases hcheck : t.asCheck.processAll paths { tree } with
  | ok failed s =>
      have hstart' : Task.Twins t tree (paths ++ []) { tree } { tree } := by
        rwa [List.append_nil]
      have hwrites' : t.asUpdate.WritesSucceed tree (paths ++ []) := by
        rwa [List.append_nil]
      obtain ⟨failed', u, hupdate, htwins⟩ := Task.twins_processAll hstart'
        (by rwa [List.append_nil]) hwrites'.processAll_ne hcheck
      obtain ⟨new, hnew, hall, hfailed⟩ := Task.processAll_ok hcheck
      obtain ⟨_, -, -, hpassed⟩ := Task.processAll_ok hupdate
      obtain rfl : failed' = false := hpassed
      obtain rfl : s.reports = new := hnew
      rw [Task.processFiles_of_ok hcheck, Task.processFiles_of_ok hupdate]
      refine .finished htwins.kept hall htwins.reports ?_
      rw [hfailed]
      exact FileReport.any_isNonCompliant_iff htwins.reports
  | error failure s =>
      obtain ⟨before, path, after, failed, s₁, rfl, hbefore, hfile⟩ :=
        Task.processAll_eq_error_iff.1 hcheck
      -- both runs come to the path, and both stop there
      obtain ⟨failed', u₁, hupdate, htwins⟩ := Task.twins_processAll hstart
        hdifferent hwrites.processAll_ne hbefore
      rw [Tree.DifferentFiles, List.map_append, List.map_cons,
        List.pairwise_append, List.pairwise_cons] at hdifferent
      have hstep := Task.twins_processFile htwins
        fun p hp => hdifferent.2.1.1 _ (List.mem_map_of_mem hp)
      rw [hfile] at hstep
      generalize hu : t.asUpdate.processFile path u₁ = result at hstep
      cases hstep with
      | @stopped failure s₂ u₂ htwins₂ hcause =>
          have hstop : t.asUpdate.processAll (before ++ path :: after) { tree }
              = .error failure u₂ := Task.processAll_eq_error_iff.2
            ⟨before, path, after, failed', u₁, rfl, hupdate, hu⟩
          rw [Task.processFiles_of_error hcheck,
            Task.processFiles_of_error hstop]
          obtain ⟨new, hnew, hall, -⟩ := Task.processAll_ok hbefore
          have hkept := t.asCheck.keepsReports_processFile path s₁
          rw [hfile] at hkept
          obtain rfl : s₁.reports = new := hnew
          exact .stopped htwins₂.kept rfl ((congrArg _ hkept).trans hall)
            htwins₂.reports hcause

/-- Four files: one without a header, a link to it, one with a header of
another year, and one with the right header, which may not be written. -/
def mixedFiles : Tree :=
  { entries :=
      [([Repository.name "r"], .directory),
        ([Repository.name "r", Repository.name "a.rs"],
          .file (Utf8.encode "fn main() {}\n".toList)),
        ([Repository.name "r", Repository.name "b.rs"],
          .link (Path.ofString "a.rs")),
        ([Repository.name "r", Repository.name "c.rs"],
          .file (Utf8.encode "// Copyright (c) 2023 A\n\nmod c;\n".toList)),
        ([Repository.name "r", Repository.name "d.rs"],
          .file (Utf8.encode
            "// Copyright (c) 2024 A\n// B\n\nmod d;\n".toList))]
    unwritable := [[Repository.name "r", Repository.name "d.rs"]] }

theorem check_agrees_with_update_of_mixed_files :
    let t : Task :=
      { root := Path.ofString "/r", check := true
        notice := ⟨["Copyright (c) 2024 A".toList, "B".toList],
          by simp, by decide, by decide⟩ }
    let paths := ["a.rs", "b.rs", "c.rs", "d.rs"].map Path.ofString
    mixedFiles.DifferentFiles (paths.map t.root.join)
      ∧ ({ t with check := false } : Task).WritesSucceed mixedFiles paths
      ∧ Agree t.root mixedFiles paths
        ((({ t with check := true, preview := {} } : Task).processFiles
          paths).run { tree := mixedFiles })
        ((({ t with check := false } : Task).processFiles paths).run
          { tree := mixedFiles }) := by
  intro t paths
  have hdifferent : mixedFiles.DifferentFiles (paths.map t.root.join) := by
    refine Tree.differentFiles_of_locate (List.pairwise_map.1 ?_)
    have hplaces : ((["a.rs", "b.rs", "c.rs", "d.rs"].map Path.ofString).map
          (Path.ofString "/r").join).map (mixedFiles.locate .itself)
        = ["a.rs", "b.rs", "c.rs", "d.rs"].map fun name =>
          .ok [Repository.name "r", Repository.name name] := by cbv
    exact hplaces ▸ by decide
  have hwrites : ({ t with check := false } : Task).WritesSucceed mixedFiles
      paths := by
    have hend : Job.outcome
        ((({ t with check := false } : Task).processFiles paths).run
          { tree := mixedFiles }) = .ok false := by cbv
    exact Task.writesSucceed_of_outcome hend (by simp)
  exact ⟨hdifferent, hwrites,
    check_agrees_with_update t mixedFiles paths hdifferent hwrites⟩

end CopyrightNotice
