/-
A run of the command, stage by stage.

Before its files a run is silent on what came of them (`silent_prepare`,
`silent_trackedFiles`). A run that gets through its files (`Through`) has
a report for each, once (`Through.results`), and only the report file can
still stop it: otherwise it ends, with the files' own answer, and adds
what is said at the end (`run_of_through`). There is no other way to the
end of a run (`through_of_run`).
-/
import CopyrightNotice.Command.Run
import CopyrightNotice.Proofs.Repository.Listing
import CopyrightNotice.Proofs.Run.Saying

namespace CopyrightNotice

open Job (keeps_bind keeps_pure)

-- ===================================================== before the files

namespace Config

/-- To look for a configuration says nothing of what came of files. -/
private theorem silent_discover (asked : Option Path) (named : Option Text)
    (root : Path) : (discover asked named root).Silent := by
  unfold discover
  split
  · exact keeps_bind (Job.silent_detail _) fun _ => keeps_pure _ _
  · refine keeps_bind ?_ fun found => ?_
    · unfold fromEnvironment
      split
      · exact keeps_pure _ _
      · refine keeps_bind Job.silent_tree fun t => ?_
        split <;> exact keeps_bind (Job.silent_detail _) fun _ =>
          keeps_pure _ _
    · split
      · exact keeps_pure _ _
      · refine keeps_bind Job.silent_tree fun t => ?_
        split <;> exact keeps_bind (Job.silent_detail _) fun _ =>
          keeps_pure _ _

private theorem silent_find (asked : Option Path) (named : Option Text)
    (root : Path) (disabled : Bool) :
    (find asked named root disabled).Silent := by
  have hload : ∀ path, (load path).Silent := fun _ =>
    keeps_bind (Job.silent_detail _) fun _ =>
      keeps_bind Job.silent_tree fun _ =>
      keeps_bind (Job.silent_orFail _ _) fun _ =>
        keeps_bind (Job.silent_detail _) fun _ => keeps_pure _ _
  unfold find
  split
  · exact keeps_bind (Job.silent_detail _) fun _ => keeps_pure _ _
  · refine keeps_bind (silent_discover _ _ _) fun found => ?_
    split
    · exact keeps_pure _ _
    · exact keeps_bind (hload _) fun _ => keeps_pure _ _

end Config

namespace Repository

variable {root dir : Path} {s s' : Session} {files : List Path}

private theorem silent_trackedFiles (root dir : Path) :
    (trackedFiles root dir).Silent := by
  refine keeps_bind Job.silent_tree fun t =>
    keeps_bind (Job.silent_orFail _ _) fun r => ?_
  cases r.staged t with
  | some entries =>
      exact keeps_bind (Job.silent_log _ _ _) fun _ =>
        keeps_bind (Job.keeps_forM fun _ => Job.silent_detail _) fun _ =>
          keeps_bind (Job.silent_detail _) fun _ => keeps_pure _ _
  | none => exact Job.silent_throw _

/-- The tracked files are the listing of an index. -/
private theorem listing_of_trackedFiles
    (h : trackedFiles root dir s = .ok files s') :
    ∃ entries, files = Staged.listing entries dir := by
  obtain ⟨t, s₁, -, h⟩ := Job.of_bind_eq_ok h
  obtain ⟨r, s₂, -, h⟩ := Job.of_bind_eq_ok h
  cases hstaged : r.staged t with
  | none =>
      rw [hstaged] at h
      cases h
  | some entries =>
      rw [hstaged] at h
      obtain ⟨_, s₃, -, h⟩ := Job.of_bind_eq_ok (j := Job.log _ _ _) h
      obtain ⟨_, s₄, -, h⟩ := Job.of_bind_eq_ok h
      obtain ⟨_, s₅, -, h⟩ := Job.of_bind_eq_ok h
      cases h
      exact ⟨entries, rfl⟩

end Repository

namespace Command

variable {o : Options} {env : Environment} {s s' : Session} {files : List Path}
  {failed : Bool}

private theorem silent_announce (o : Options) : (announce o).Silent := by
  have hwarning : (if !o.check && (o.showDiff || o.saveDiff.isSome) then
      Job.say (.warning
        "Warning: --show-diff and --save-diff only apply to check")
      else pure () : Job Unit).Silent := by
    split
    · exact Job.silent_say rfl
    · exact keeps_pure _ _
  unfold announce
  dsimp only
  split
  · exact keeps_bind (Job.silent_log _ _ _) fun _ => hwarning
  · exact hwarning

private theorem silent_findRoot (start : Path) : (findRoot start).Silent := by
  refine keeps_bind Job.silent_tree fun t =>
    keeps_bind (Job.silent_orFail _ _) fun found => ?_
  cases found with
  | none => exact Job.silent_throw _
  | some repository =>
      dsimp only
      split
      · exact keeps_pure _ _
      · exact Job.silent_throw _

private theorem silent_loadNotice (path : Path) :
    (loadNotice path).Silent := by
  refine keeps_bind (Job.silent_detail _) fun _ =>
      keeps_bind Job.silent_tree fun t =>
    keeps_bind (Job.silent_orFail _ _) fun notice => ?_
  dsimp only
  split
  · exact keeps_bind (Job.silent_log _ _ _) fun _ => keeps_pure _ _
  · exact keeps_pure _ _

/-- A run is prepared before anything is said of a file. -/
private theorem silent_prepare (o : Options) (env : Environment) :
    (prepare o env).Silent := by
  refine keeps_bind (silent_announce o) fun _ =>
      keeps_bind Job.silent_tree fun t =>
    keeps_bind (silent_findRoot _) fun root =>
      keeps_bind (Job.silent_log _ _ _) fun _ =>
    keeps_bind (Config.silent_find _ _ _ _) fun found => ?_
  exact keeps_bind (silent_loadNotice _) fun notice =>
      keeps_bind Job.silent_tree fun t =>
    keeps_bind (Job.silent_orFail _ _) fun directory =>
    keeps_bind (Preview.silent_begin _) fun _ => keeps_pure _ _

/-- A run checks its files if it was asked for a check. -/
private theorem check_of_prepare {task : Task} {directory : Path}
    (h : prepare o env s = .ok (task, directory) s') :
    task.check = o.check := by
  obtain ⟨_, s₁, -, h⟩ := Job.of_bind_eq_ok h
  obtain ⟨_, s₂, -, h⟩ := Job.of_bind_eq_ok h
  obtain ⟨_, s₃, -, h⟩ := Job.of_bind_eq_ok h
  obtain ⟨_, s₄, -, h⟩ := Job.of_bind_eq_ok h
  obtain ⟨_, s₅, -, h⟩ := Job.of_bind_eq_ok h
  obtain ⟨_, s₆, -, h⟩ := Job.of_bind_eq_ok h
  obtain ⟨_, s₇, -, h⟩ := Job.of_bind_eq_ok h
  obtain ⟨_, s₈, -, h⟩ := Job.of_bind_eq_ok h
  obtain ⟨_, s₉, -, h⟩ := Job.of_bind_eq_ok h
  cases h
  rfl

-- ======================================================== the files

/-- A run gets through its files. -/
def Through (o : Options) (env : Environment) (s : Session) (files : List Path)
    (failed : Bool) (s' : Session) : Prop :=
  ∃ task directory s₁ s₂, prepare o env s = .ok (task, directory) s₁
    ∧ Repository.trackedFiles task.root directory s₁ = .ok files s₂
    ∧ task.processFiles files (s₂.saying [.start files.length o.check])
    = .ok failed s'

namespace Through

/-- A run through its files has a report for each of them, in order, and
what was said of them is what the reports hold. -/
theorem results (h : Through o env s files failed s') :
    ∃ new, s'.results = (s.reports ++ new,
        s.events.filter Event.isVerdict ++ new.filterMap FileReport.verdict?)
      ∧ new.map FileReport.path = files
      ∧ (∀ r ∈ new, r.status = .skipped ∨ ∃ v, r.status = .ofVerdict o.check v)
      ∧ failed = (o.check && new.any FileReport.isNonCompliant) := by
  obtain ⟨task, directory, s₁, s₂, hprepare, hfiles, hprocess⟩ := h
  have hprepared := (silent_prepare o env).of_ok hprepare
  have hlisted := (Repository.silent_trackedFiles _ _).of_ok hfiles
  have hstarted := (Job.silent_say (e := .start files.length o.check) rfl) s₂
  obtain ⟨new, hresults, hrest⟩ := Task.processFiles_ok hprocess
  rw [check_of_prepare hprepare] at hrest
  refine ⟨new, ?_, hrest⟩
  have hbefore := hstarted.trans (hlisted.trans hprepared)
  simp only [Session.results, Prod.mk.injEq] at hbefore
  rw [hresults]
  exact congr (congrArg _ (congrArg (· ++ new) hbefore.1))
    (congrArg (· ++ new.filterMap FileReport.verdict?) hbefore.2)

/-- No file is listed twice. -/
theorem nodup (h : Through o env s files failed s') : files.Nodup := by
  obtain ⟨task, directory, s₁, s₂, -, hfiles, -⟩ := h
  obtain ⟨entries, rfl⟩ := Repository.listing_of_trackedFiles hfiles
  exact Staged.listing_nodup entries directory

end Through

-- ======================================================== the end

/-- The summary at the end of a run. -/
def summaryOf (env : Environment) (s : Session) : Summary :=
  .ofReports s.reports env.elapsed env.timestamp

/-- The report file of a run, as it is written. -/
def reportWrite (env : Environment) (s : Session) (path : Path) : Write :=
  .replace path (Utf8.encode (renderReport s.reports (summaryOf env s)))

/-- What is said at the end of a run in front of the report file. -/
def verdictsAndCounts (o : Options) (summary : Summary) : List Event :=
  (if summary.nonCompliant = 0 then [.blank, .allOk] else [])
    ++ [.blank, .summary summary o.check]

/-- Writes the report file, if one is asked for. -/
def save? (env : Environment) (s : Session) : Option Path → Job Unit
  | none => pure ()
  | some path => do
    saveReport path s.reports (summaryOf env s)
    Job.say (.info ("Generated JSON report at " ++ path.display))

/-- Says what to do after a failed check. -/
def advise (failed : Bool) : Job Unit :=
  if failed then do
    Job.say .blank
    Job.say .hint
  else pure ()

/-- To save a report is to write it and to say so. -/
theorem save?_some_bind (path : Path) (rest : Job Unit) :
    (save? env s (some path) >>= fun _ => rest)
      = (saveReport path s.reports (summaryOf env s)
        >>= fun _ =>
          Job.say (.info ("Generated JSON report at " ++ path.display))
            >>= fun _ => rest) :=
  bind_assoc _ _ _

/-- The end of a run, with everything that is said in front of the report
file said at once. -/
theorem conclude_eq : conclude o env failed s
    = (save? env s o.reportJson >>= fun _ => advise failed)
      (s.saying (verdictsAndCounts o (summaryOf env s))) := by
  refine (Job.bind_of_ok (j := get) (a := s) rfl).trans ?_
  rw [verdictsAndCounts]
  by_cases hall : (summaryOf env s).nonCompliant = 0
  · refine (congrFun (if_pos hall) s).trans ?_
    rw [if_pos hall]
    simp only [Job.say_bind, Session.saying_saying]
    cases o.reportJson with
    | none => rfl
    | some path => exact (congrFun (save?_some_bind path _) _).symm
  · refine (congrFun (if_neg hall) s).trans ?_
    rw [if_neg hall]
    simp only [Job.say_bind, Session.saying_saying]
    cases o.reportJson with
    | none => rfl
    | some path => exact (congrFun (save?_some_bind path _) _).symm

/-- What is said at the end of a run. -/
def closing (o : Options) (summary : Summary) (failed : Bool) : List Event :=
  verdictsAndCounts o summary
    ++ (o.reportJson.map fun path =>
      .info ("Generated JSON report at " ++ path.display)).toList
    ++ if failed then [.blank, .hint] else []

/-- The report file, if one is asked for, can be written. -/
def Saves (o : Options) (env : Environment) (s : Session) : Prop :=
  ∀ path, o.reportJson = some path → ∃ t,
    (reportWrite env s path).apply s.tree = .ok t

/-- Advice is a blank line and the hint, where a file failed. -/
theorem advise_eq (failed : Bool) (s : Session) :
    advise failed s
      = .ok () (s.saying (if failed then [.blank, .hint] else [])) := by
  cases failed with
  | false => simp [advise, Session.saying, pure, EStateM.pure]
  | true =>
      rw [advise, if_pos rfl, Job.say_bind, Job.say_eq, Session.saying_saying]
      rfl

/-- A run whose report file can be written comes to its end, and nothing else
is written there. -/
private theorem conclude_of_saves (failed : Bool) (h : Saves o env s) :
    ∃ s', conclude o env failed s = .ok () s'
      ∧ s'.reports = s.reports
      ∧ s'.events = s.events ++ closing o (summaryOf env s) failed
      ∧ s'.writes
        = s.writes ++ (o.reportJson.map (reportWrite env s)).toList := by
  rw [conclude_eq]
  cases hreport : o.reportJson with
  | none =>
      refine ⟨_, advise_eq failed _, rfl, ?_, ?_⟩
      · simp [Session.saying, closing, hreport]
      · simp [Session.saying]
  | some path =>
      obtain ⟨t, ht⟩ := h path hreport
      have hsaved : saveReport path s.reports (summaryOf env s)
          (s.saying (verdictsAndCounts o (summaryOf env s))) = .ok () _ :=
          Job.change_of_ok ht
      have hsave : save? env s (some path) _ = .ok () _ :=
        (Job.bind_of_ok hsaved).trans (Job.say_eq _ _)
      refine ⟨_, (Job.bind_of_ok hsave).trans (advise_eq failed _),
        rfl, ?_, ?_⟩
      · simp [Session.saying, closing, hreport]
      · simp [Session.saying, reportWrite]

/-- The end of a run is reached only with the report file written. -/
private theorem saves_of_conclude (h : conclude o env failed s = .ok () s') :
    Saves o env s := by
  intro path hreport
  rw [conclude_eq, hreport] at h
  obtain ⟨_, s₁, hsave, -⟩ := Job.of_bind_eq_ok h
  obtain ⟨_, s₂, hchange, -⟩ := Job.of_bind_eq_ok hsave
  cases happly : (reportWrite env s path).apply s.tree with
  | ok t => exact ⟨t, rfl⟩
  | error fault =>
      have herror : saveReport path s.reports (summaryOf env s)
          (s.saying (verdictsAndCounts o (summaryOf env s)))
          = .error (.writeReport path fault) _ :=
        Job.change_of_error happly
      rw [herror] at hchange
      cases hchange

-- ============================================================== a run

/-- A run that gets through its files and can write its report comes to its
end. -/
theorem run_of_through (h : Through o env s files failed s')
    (hsaves : Saves o env s') :
    ∃ s'', run o env s = .ok failed s''
      ∧ s''.reports = s'.reports
      ∧ s''.events = s'.events ++ closing o (summaryOf env s') failed
      ∧ s''.writes
        = s'.writes ++ (o.reportJson.map (reportWrite env s')).toList := by
  obtain ⟨task, directory, s₁, s₂, hprepare, hfiles, hprocess⟩ := h
  obtain ⟨s'', hconclude, hrest⟩ := conclude_of_saves failed hsaves
  refine ⟨s'', ?_, hrest⟩
  refine (Job.bind_of_ok hprepare).trans ((Job.bind_of_ok hfiles).trans ?_)
  rw [Job.say_bind]
  exact (Job.bind_of_ok hprocess).trans (Job.bind_of_ok hconclude)

/-- A run that comes to its end has got through its files. -/
theorem through_of_run {s'' : Session} (h : run o env s = .ok failed s'') :
    ∃ files s', Through o env s files failed s' ∧ Saves o env s' := by
  obtain ⟨⟨task, directory⟩, s₁, hprepare, h⟩ := Job.of_bind_eq_ok h
  obtain ⟨files, s₂, hfiles, h⟩ := Job.of_bind_eq_ok h
  rw [Job.say_bind] at h
  obtain ⟨failed', s', hprocess, h⟩ := Job.of_bind_eq_ok h
  obtain ⟨_, s₃, hconclude, hlast⟩ := Job.of_bind_eq_ok h
  cases hlast
  exact ⟨files, s', ⟨task, directory, s₁, s₂, hprepare, hfiles, hprocess⟩,
    saves_of_conclude hconclude⟩

end Command

end CopyrightNotice
