/-
Summary, reports and exit code of a run fit together.

Whether a check failed is found out while the files are looked at; the
counts, and with them what is said at the end, are made of the reports
afterwards. Every report is in one of the six counts
(`Summary.sum_counts`), and four of them count the files that were not as
they should be (`Summary.nonCompliant_ofReports`). So the count of these is
zero exactly if the loop over the files found none, and what ends a run
follows from it (`verdicts_of_run`).
-/
import CopyrightNotice.Proofs.Command.Stages
import Mathlib

namespace CopyrightNotice

-- ============================================================== counts

namespace Summary

/-- The count of a status. -/
def count (s : Summary) : FileStatus → Nat
  | .compliant => s.compliant
  | .missing => s.missing
  | .outOfDate => s.outOfDate
  | .inserted => s.inserted
  | .replaced => s.replaced
  | .skipped => s.skipped

variable (reports : List FileReport) (elapsed : Elapsed) (timestamp : Int)

/-- A status is counted by the reports that have it. -/
private theorem count_ofReports (status : FileStatus) :
    (ofReports reports elapsed timestamp).count status
      = reports.countP (·.status == status) := by
  cases status <;> rfl

/-- Every report is in one of the counts. -/
private theorem sum_counts {s : Summary}
    (h : s = ofReports reports elapsed timestamp) :
    s.compliant + s.missing + s.outOfDate + s.inserted + s.replaced + s.skipped
      = s.total := by
  subst h
  simp only [ofReports]
  induction reports with
  | nil => rfl
  | cons r reports ih =>
      obtain ⟨path, status, reason⟩ := r
      simp only [List.countP_cons, List.length_cons]
      cases status <;> simp <;> omega

/-- The non-compliant files are counted by their reports. -/
theorem nonCompliant_ofReports :
    (ofReports reports elapsed timestamp).nonCompliant
      = reports.countP FileReport.isNonCompliant := by
  simp only [nonCompliant, ofReports]
  induction reports with
  | nil => rfl
  | cons r reports ih =>
      obtain ⟨path, status, reason⟩ := r
      simp only [List.countP_cons, FileReport.isNonCompliant]
      cases status <;> simp [FileStatus.isNonCompliant] <;> omega

end Summary

-- ============================================================== options

namespace Options

/-- A quiet run has no details. -/
private theorem verbosity_of_quiet {check : Bool} {words : List Text}
    {o : Options} (h : parse check words = .ok o) (hquiet : o.quiet = true) :
    o.verbosity = 0 := by
  unfold parse at h
  cases hread : readWords { check } none words with
  | error stop =>
      rw [hread] at h
      cases h
  | ok read =>
      rw [hread] at h
      change (if read.quiet && decide (0 < read.verbosity) then _ else _)
        = _ at h
      split at h
      · cases h
      · rename_i hdetails
        cases h
        simpa [hquiet] using hdetails

end Options

namespace Request

/-- The options of a run are those behind its command. -/
theorem options_of_run {words : List Text} {o : Options}
    (h : parse words = .ok (.run o)) :
    ∃ check more, Options.parse check more = .ok o := by
  have options : ∀ {check more},
      ((do return .run (← Options.parse check more)) : Except Stop Request)
      = .ok (.run o) →
      ∃ check more, Options.parse check more = .ok o := by
    intro check more hrun
    cases hoptions : Options.parse check more with
    | error stop =>
        rw [hoptions] at hrun
        cases hrun
    | ok read =>
        rw [hoptions] at hrun
        cases hrun
        exact ⟨check, more, hoptions⟩
  -- only check and update make a run; help in any form stops
  unfold parse at h
  split at h
  · cases h
  · split at h
    · exact options h
    · exact options h
    · unfold ofHelp at h
      split at h
      · cases h
      · split at h <;> cases h
      · cases h
    · cases h
    · cases h
    · split at h
      · unfold ofLetters at h
        split at h <;> cases h
      · cases h

/-- A run is quiet if the command line asks for it. -/
theorem mode_eq_quiet_iff {words : List Text} {o : Options}
    (h : parse words = .ok (.run o)) : o.mode = .quiet ↔ o.quiet = true := by
  have hverbosity : o.quiet = true → o.verbosity = 0 := by
    obtain ⟨check, more, hoptions⟩ := options_of_run h
    exact Options.verbosity_of_quiet hoptions
  unfold Options.mode
  constructor
  · intro hmode
    split at hmode
    · cases hmode
    · split at hmode
      · assumption
      · cases hmode
  · intro hquiet
    rw [if_neg (by simp [hverbosity hquiet]), if_pos hquiet]

end Request

-- ============================================================== output

namespace Voice

variable {v : Voice}

/-- An event that a quiet run passes over is printed by the others, if they
have a line for it. -/
theorem stdout_ne_iff {e : Event} (hline : (v.stdoutLine? e).isSome = true)
    (hquiet : quietLine? e = none) : v.stdout e ≠ "" ↔ v.mode ≠ .quiet := by
  obtain ⟨line, hline⟩ := Option.isSome_iff_exists.1 hline
  unfold stdout
  split_ifs with hmode <;> simp [*]

end Voice

/-- A command prints an event on standard output. -/
def Outcome.Prints (out : Outcome) (v : Voice) (e : Event) : Prop :=
  e ∈ out.session.events ∧ v.stdout e ≠ ""

namespace Command

variable {o : Options} {env : Environment} {s final : Session}
  {files : List Path} {failed : Bool}

/-- What is said of the whole run. -/
def runVerdicts (o : Options) (summary : Summary) (failed : Bool) :
    List Event :=
  (if summary.nonCompliant = 0 then [.allOk] else [])
    ++ [.summary summary o.check]
    ++ if failed then [.hint] else []

/-- The verdicts on a run: that all is well, the summary, and the hint. -/
theorem mem_runVerdicts {summary : Summary} {e : Event} :
    e ∈ runVerdicts o summary failed
      ↔ e = .allOk ∧ summary.nonCompliant = 0
        ∨ e = .summary summary o.check
        ∨ e = .hint ∧ failed = true := by
  unfold runVerdicts
  by_cases hall : summary.nonCompliant = 0 <;> cases failed <;> simp [hall]

/-- What closes a run has these verdicts and no other. -/
private theorem filter_closing (o : Options) (summary : Summary)
    (failed : Bool) :
    (closing o summary failed).filter Event.isVerdict
      = runVerdicts o summary failed := by
  unfold closing verdictsAndCounts runVerdicts
  by_cases hall : summary.nonCompliant = 0
  · rw [if_pos hall, if_pos hall]
    cases o.reportJson <;> cases failed <;> rfl
  · rw [if_neg hall, if_neg hall]
    cases o.reportJson <;> cases failed <;> rfl

/-- What is said of files and of the run, once a run has got through its
files: the outcome of every file that was looked into, in order, and then of
the run. -/
theorem verdicts_of_run {tree : Tree}
    (h : Through o env { tree } files failed s)
    (hevents : final.events = s.events ++ closing o (summaryOf env s) failed) :
    final.events.filter Event.isVerdict
      = s.reports.filterMap FileReport.verdict?
        ++ runVerdicts o (summaryOf env s) failed := by
  obtain ⟨new, hresults, -⟩ := h.results
  simp only [Session.results, List.nil_append, List.filter_nil,
    Prod.mk.injEq] at hresults
  rw [hevents, List.filter_append, hresults.1, hresults.2, filter_closing]

/-- What is said of the whole run is not said of a file. -/
theorem mem_events_iff (e : Event) {reports : List FileReport}
    {last : List Event}
    (h : s.events.filter Event.isVerdict
      = reports.filterMap FileReport.verdict? ++ last)
    (hverdict : e.isVerdict = true)
    (hrun : ∀ path status, e ≠ .status path status) :
    e ∈ s.events ↔ e ∈ last := by
  have hmem : e ∈ s.events ↔ e ∈ s.events.filter Event.isVerdict := by
    simp [List.mem_filter, hverdict]
  rw [hmem, h, List.mem_append, or_iff_right]
  intro hfile
  obtain ⟨r, -, hr⟩ := List.mem_filterMap.1 hfile
  unfold FileReport.verdict? at hr
  split at hr
  · cases hr
  · exact hrun _ _ (Option.some.inj hr).symm

/-- A check fails if one of its files is not as it should be. -/
theorem failed_iff {tree : Tree} (h : Through o env { tree } files failed s) :
    failed = true ↔ o.check = true ∧ 0 < (summaryOf env s).nonCompliant := by
  obtain ⟨new, hresults, -, -, rfl⟩ := h.results
  have hreports : s.reports = new := congrArg Prod.fst hresults
  rw [summaryOf, Summary.nonCompliant_ofReports, List.countP_pos_iff, hreports,
    Bool.and_eq_true, List.any_eq_true]

/-- What a command leaves behind whose run comes to its end. -/
theorem execute_of_run {words : List Text}
    (hparse : Request.parse words = .ok (.run o))
    (hrun : run o env s = .ok failed final) :
    execute words env s
      = ⟨if failed then 1 else 0, (o.voice env).allStdout final.events,
        (o.voice env).allStderr final.events, final⟩ := by
  have hrun' : (run o env).run s = .ok failed final := hrun
  rw [execute, hparse]
  simp only [outcome, hrun']

end Command

-- ============================================================== result

/-- Summary, reports, exit code and messages of a run that gets through its
files, and whose report file can be written if one is asked for, agree: the
run ends, there is a report for each of the files in order, the summary that
is printed and saved has them in its six counts, one for each status, and
the command fails if it is a check and the summary counts a file that is not
as it should be. Unless it is quiet it then prints the hint, and the line
that all is well if there is no such file. -/
theorem summary_agrees {words : List Text} {env : Environment} {tree : Tree}
    {o : Options} {files : List Path} {failed : Bool} {s : Session}
    (hparse : Request.parse words = .ok (.run o))
    (hthrough : Command.Through o env { tree } files failed s)
    (hsaves : Command.Saves o env s) :
    ∃ final, Command.run o env { tree } = .ok failed final
      ∧ final.reports.map FileReport.path = files
      ∧ ∃ summary, (∀ counts check, .summary counts check ∈ final.events
          ↔ counts = summary ∧ check = o.check)
        ∧ (∀ path, o.reportJson = some path →
          .replace path (Utf8.encode (renderReport final.reports summary))
            ∈ final.writes)
        ∧ summary.compliant + summary.missing + summary.outOfDate
            + summary.inserted + summary.replaced + summary.skipped
          = summary.total
        ∧ summary.total = files.length
        ∧ (∀ status, summary.count status
          = final.reports.countP (·.status == status))
        ∧ summary.nonCompliant = final.reports.countP FileReport.isNonCompliant
        ∧ ∃ out, Command.execute words env { tree } = out
          ∧ out.session = final
          ∧ out.stdout = (o.voice env).allStdout final.events
          ∧ out.code
            = (if o.check = true ∧ 0 < summary.nonCompliant then 1 else 0)
          ∧ (out.Prints (o.voice env) .hint ↔ out.code = 1 ∧ o.quiet = false)
          ∧ (out.Prints (o.voice env) .allOk
            ↔ summary.nonCompliant = 0 ∧ o.quiet = false) := by
  obtain ⟨final, hrun, hreports, hevents, hwrites⟩ :=
    Command.run_of_through hthrough hsaves
  obtain ⟨new, hresults, hpaths, -⟩ := hthrough.results
  have hnew : s.reports = new := congrArg Prod.fst hresults
  have hverdicts := Command.verdicts_of_run hthrough hevents
  have hfailed := Command.failed_iff hthrough
  have hsummary : Command.summaryOf env s
      = Summary.ofReports final.reports env.elapsed env.timestamp := by
    rw [Command.summaryOf, hreports]
  rw [hsummary] at hverdicts hfailed
  -- who is told what
  have hloud : (o.voice env).mode ≠ .quiet ↔ o.quiet = false := by
    rw [← Bool.not_eq_true, ← Request.mode_eq_quiet_iff hparse]
    rfl
  refine ⟨final, hrun, by rw [hreports, hnew, hpaths],
    .ofReports final.reports env.elapsed env.timestamp, fun counts check => ?_,
    fun path hpath => ?_, Summary.sum_counts _ _ _ rfl, ?_,
      Summary.count_ofReports _ _ _,
    Summary.nonCompliant_ofReports _ _ _, _,
      Command.execute_of_run hparse hrun, rfl, rfl,
    ?_, ?_, ?_⟩
  · rw [Command.mem_events_iff (.summary counts check) hverdicts rfl nofun,
      Command.mem_runVerdicts]
    simp
  · rw [hwrites, hpath, ← hsummary, hreports]
    exact List.mem_append_right _ (List.mem_singleton.2 rfl)
  · rw [← hpaths, List.length_map, ← hnew, ← hreports]
    rfl
  · simp only [hfailed]
  · rw [Outcome.Prints, Voice.stdout_ne_iff rfl rfl, hloud,
      Command.mem_events_iff .hint hverdicts rfl nofun,
      Command.mem_runVerdicts]
    cases failed <;> simp
  · rw [Outcome.Prints, Voice.stdout_ne_iff rfl rfl, hloud,
      Command.mem_events_iff .allOk hverdicts rfl nofun,
      Command.mem_runVerdicts]
    simp

-- ========================================================== a checkout

open Repository (name)

/-- A repository that tracks two files. The second has the notice. -/
def checkout : Tree where
  entries :=
    [([name "r"], .directory),
     ([name "r", name ".git"], .directory),
     ([name "r", name ".git", name "HEAD"], .file []),
     ([name "r", name ".git", name "objects"], .directory),
     ([name "r", name ".git", name "refs"], .directory),
     ([name "r", name ".git", name "index"],
       .file (Index.write [{ path := name "a.rs" }, { path := name "b.rs" }])),
     ([name "r", name "COPY"], .file (name "Copyright (c) A")),
     ([name "r", name "a.rs"], .file (name "fn a() \x7b\x7d\n")),
     ([name "r", name "b.rs"],
       .file (name "// Copyright (c) A\n\nfn b() \x7b\x7d\n"))]
  here := [name "r"]

/-- The words for a quiet check without a configuration. -/
def quietWords :
    List Text := ["check".toList, "-q".toList, "--no-config".toList]

/-- The options of that check. -/
def quietCheck : Options := { check := true, quiet := true, noConfig := true }

/-- The task of that check in the repository. -/
def checkoutTask : Task where
  root := ⟨name "/r/"⟩
  notice := ⟨["Copyright (c) A".toList], by simp, by decide, by decide⟩
  check := true
  overrides := ({} : Config).overrides
  marker := ({} : Config).optOutMarker

namespace Job

variable {α : Type} {r : EStateM.Result Failure Session α} {a : α}

/-- What came of a job, if it did not fail. -/
def answer? : EStateM.Result Failure Session α → Option α
  | .ok a _ => some a
  | .error _ _ => none

/-- A run with an answer did not fail. -/
theorem of_answer? (h : answer? r = some a) : ∃ s, r = .ok a s := by
  cases r with
  | ok b s =>
      cases h
      exact ⟨s, rfl⟩
  | error failure s => cases h

end Job

namespace Command

theorem parse_quietWords : Request.parse quietWords = .ok (.run quietCheck) :=
  rfl

/-- The root of the checkout is found. -/
private theorem findRoot_checkout :
    findRoot (Location.path [name "r"]) { tree := checkout }
      = .ok ⟨name "/r/"⟩ { tree := checkout } := by
  have hdiscover : Repository.discover checkout (Location.path [name "r"])
      = .ok (some ⟨[name "r", name ".git"]⟩) := by cbv
  have hbare : Repository.isBare checkout ⟨[name "r", name ".git"]⟩
    = false := by cbv
  have hroot : Repository.workingTree? checkout ⟨[name "r", name ".git"]⟩
      = some ⟨name "/r/"⟩ := by
    rw [Repository.workingTree?,
      if_neg (by rw [hbare]; exact Bool.false_ne_true)]
    cbv
  refine (Job.bind_of_ok (j := Job.tree) rfl).trans
    ((Job.bind_of_ok (Job.orFail_of_ok _ hdiscover _)).trans ?_)
  dsimp only
  rw [hroot]
  rfl

/-- The notice of the checkout is loaded. -/
private theorem loadNotice_checkout (said : List Event) : ∃ more,
    loadNotice ⟨name "/r/COPY"⟩ { tree := checkout, events := said }
      = .ok checkoutTask.notice { tree := checkout, events := more } := by
  have hread : Notice.read checkout ⟨name "/r/COPY"⟩
    = .ok checkoutTask.notice := by cbv
  have hrecognizable : checkoutTask.notice.isRecognizable = true := by decide
  apply Exists.intro
  refine (Job.bind_of_ok (Job.say_eq _ _)).trans <|
    (Job.bind_of_ok (j := Job.tree) rfl).trans <|
    (Job.bind_of_ok (Job.orFail_of_ok _ hread _)).trans ?_
  rw [hrecognizable]
  rfl

/-- The run on the checkout is prepared. -/
private theorem prepare_checkout : ∃ said, prepare quietCheck {}
        { tree := checkout }
      = .ok (checkoutTask, ⟨name "."⟩)
        { tree := checkout, events := said } := by
  have hfind : ∀ s, Config.find none none ⟨name "/r/"⟩ true s = .ok none
      (s.saying [.detail "Config file discovery disabled (--no-config)"]) :=
      fun _ => rfl
  obtain ⟨said, hload⟩ := loadNotice_checkout
    [.log ⟨.debug, .command,
    "Using repository root: " ++ Path.display ⟨name "/r/"⟩⟩,
      .detail "Config file discovery disabled (--no-config)"]
  have hdir : Workspace.relativeDir checkout ⟨name "/r/"⟩ ⟨name "."⟩
    = .ok ⟨name "."⟩ := by cbv
  have hannounce : announce quietCheck { tree := checkout }
    = .ok () { tree := checkout } := rfl
  exact ⟨said, (Job.bind_of_ok hannounce).trans <|
    (Job.bind_of_ok (j := Job.tree) rfl).trans <|
    (Job.bind_of_ok findRoot_checkout).trans <|
    (Job.bind_of_ok (Job.say_eq _ _)).trans <|
      (Job.bind_of_ok (hfind _)).trans <|
    (Job.bind_of_ok hload).trans <|
      (Job.bind_of_ok (j := Job.tree) rfl).trans <|
    (Job.bind_of_ok (Job.orFail_of_ok _ hdir _)).trans rfl⟩

/-- The part of the check that looks at the files. -/
def inspectCheckout : Job Bool := do
  let files ← Repository.trackedFiles checkoutTask.root ⟨name "."⟩
  Job.say (.start files.length quietCheck.check)
  checkoutTask.processFiles files

/-- The check finds the header of the first file missing. -/
theorem run_checkout : ∃ final, run quietCheck {} { tree := checkout }
        = .ok true final
      ∧ final.reports
        = [{ path := ⟨name "a.rs"⟩, status := .missing },
          { path := ⟨name "b.rs"⟩, status := .compliant }] := by
  obtain ⟨said, hprepare⟩ := prepare_checkout
  -- the end of the run, with the time it took, is left to the general lemma
  have hend : (Job.answer?
          (inspectCheckout { tree := checkout, events := said }),
        (Job.left
            (inspectCheckout { tree := checkout, events := said })).reports)
      = (some true, [{ path := ⟨name "a.rs"⟩, status := .missing },
          { path := ⟨name "b.rs"⟩, status := .compliant }]) := by cbv
  obtain ⟨hanswer, hreports⟩ := Prod.mk.inj hend
  obtain ⟨s', hs'⟩ := Job.of_answer? hanswer
  rw [hs'] at hreports
  obtain ⟨paths, s₂, hfiles, hprocess⟩ := Job.of_bind_eq_ok hs'
  rw [Job.say_bind] at hprocess
  have hthrough : Through quietCheck {} { tree := checkout } paths true s' :=
    ⟨checkoutTask, ⟨name "."⟩, _, s₂, hprepare, hfiles, hprocess⟩
  have hsaves : Saves quietCheck {} s' := by
    intro path hreport
    cases hreport
  obtain ⟨final, hrun, hkept, -⟩ := run_of_through hthrough hsaves
  exact ⟨final, hrun, hkept.trans hreports⟩

end Command

/-- The check of the repository: one file of two without the header. -/
theorem summary_agrees_of_checkout : ∃ summary : Summary, (Command.execute
          quietWords {} { tree := checkout }).session.reports.map
          FileReport.path
        = [⟨name "a.rs"⟩, ⟨name "b.rs"⟩]
      ∧ (summary.total = 2 ∧ summary.missing = 1 ∧ summary.compliant = 1)
      ∧ .summary summary true
        ∈ (Command.execute quietWords {} { tree := checkout }).session.events
      ∧ (Command.execute quietWords {} { tree := checkout }).code = 1 := by
  obtain ⟨final, hrun, hreports⟩ := Command.run_checkout
  obtain ⟨files, s, hthrough, hsaves⟩ := Command.through_of_run hrun
  obtain ⟨final', hrun', hpaths, summary, hsaid, -, -, htotal, hcount, hbad,
      out, rfl, hout, -, hcode, -⟩ :=
    summary_agrees Command.parse_quietWords hthrough hsaves
  obtain rfl : final' = final := by injection hrun'.symm.trans hrun
  have hmissing := hcount .missing
  have hcompliant := hcount .compliant
  rw [hreports] at hpaths hmissing hcompliant hbad
  refine ⟨summary, ?_, ⟨?_, hmissing, hcompliant⟩, ?_, ?_⟩
  · rw [hout, hreports]
    rfl
  · rw [htotal, ← hpaths]
    rfl
  · rw [hout]
    exact (hsaid _ _).2 ⟨rfl, rfl⟩
  · rw [hcode, hbad]
    rfl

end CopyrightNotice
