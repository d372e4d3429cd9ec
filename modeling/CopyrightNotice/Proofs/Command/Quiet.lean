/-
What a quiet run prints on standard output: the paths of failing files.

A quiet voice is silent on everything but the outcome of a file whose
header is missing or out of date (`Voice.stdout_eq_empty`), so of all that
was said only the verdicts matter (`Voice.allStdout_filter`), and of these
only what the reports say of such files (`Voice.allStdout_verdicts`). An
update has no such file: what it finds, it corrects.
-/
import CopyrightNotice.Proofs.Command.Summary

namespace CopyrightNotice

-- ============================================================== a voice

namespace Voice

variable {v : Voice}

theorem allStdout_cons (e : Event) (events : List Event) :
    v.allStdout (e :: events) = v.stdout e ++ v.allStdout events := by
  rw [allStdout, List.map_cons, String.join_cons]
  rfl

/-- What is printed for two lists of events is printed for one after the
other. -/
theorem allStdout_append (a b : List Event) :
    v.allStdout (a ++ b) = v.allStdout a ++ v.allStdout b := by
  rw [allStdout, List.map_append, String.join_append]
  rfl

/-- Events that print nothing print nothing together. -/
private theorem allStdout_eq_empty {events : List Event}
    (h : ∀ e ∈ events, v.stdout e = "") : v.allStdout events = "" := by
  induction events with
  | nil => rfl
  | cons e events ih =>
      obtain ⟨hfirst, hrest⟩ := List.forall_mem_cons.1 h
      rw [allStdout_cons, hfirst, ih hrest, String.empty_append]

/-- A quiet voice is silent on what it has no line for. -/
theorem stdout_eq_empty (hquiet : v.mode = .quiet) {e : Event}
    (h : quietLine? e = none) : v.stdout e = "" := by
  simp only [stdout, if_pos hquiet, h]

private theorem quietLine?_of_not_verdict {e : Event}
    (h : e.isVerdict = false) : quietLine? e = none := by
  cases e <;> first | rfl | cases h

/-- Of what was said, a quiet voice prints verdicts only. -/
private theorem allStdout_filter (hquiet : v.mode = .quiet)
    (events : List Event) :
    v.allStdout (events.filter Event.isVerdict) = v.allStdout events := by
  induction events with
  | nil => rfl
  | cons e events ih =>
      cases hverdict : e.isVerdict with
      | true =>
          rw [List.filter_cons_of_pos hverdict, allStdout_cons,
            allStdout_cons, ih]
      | false =>
          have hnone :=
            stdout_eq_empty hquiet (quietLine?_of_not_verdict hverdict)
          rw [List.filter_cons_of_neg (by simp [hverdict]), ih,
            allStdout_cons, hnone, String.empty_append]

end Voice

-- ========================================================= failing files

/-- Whether a check found the header of a file missing or out of date. -/
def FileReport.fails (r : FileReport) : Bool :=
  r.status == .missing || r.status == .outOfDate

/-- An update leaves no header missing or out of date. -/
private theorem FileReport.not_fails_of_update {r : FileReport}
    (h : r.status = .skipped ∨ ∃ v, r.status = .ofVerdict false v) :
    r.fails = false := by
  rcases h with h | ⟨v, h⟩
  · rw [fails, h]
    rfl
  · rw [fails, h]
    cases v <;> rfl

namespace Voice

variable {v : Voice}

/-- A quiet voice prints of a file its path if it fails. -/
private theorem allStdout_verdict? (hquiet : v.mode = .quiet)
    (r : FileReport) :
    v.allStdout r.verdict?.toList
      = if r.fails then r.path.display ++ "\n" else "" := by
  obtain ⟨path, status, reason⟩ := r
  cases status <;>
    simp [FileReport.verdict?, FileReport.fails, allStdout, stdout,
      hquiet, quietLine?]

/-- Of the verdicts on files, those that fail print their path. -/
private theorem allStdout_verdicts (hquiet : v.mode = .quiet)
    (reports : List FileReport) :
    v.allStdout (reports.filterMap FileReport.verdict?)
      = String.join ((reports.filter FileReport.fails).map fun r =>
        r.path.display ++ "\n") := by
  induction reports with
  | nil => rfl
  | cons r reports ih =>
      have hsplit : (r :: reports).filterMap FileReport.verdict?
          = r.verdict?.toList ++ reports.filterMap FileReport.verdict? := by
        cases h : r.verdict? <;> simp [h]
      rw [hsplit, allStdout_append, allStdout_verdict? hquiet, ih]
      cases hfails : r.fails with
      | true =>
          rw [List.filter_cons_of_pos hfails, List.map_cons, String.join_cons]
          rfl
      | false =>
          rw [List.filter_cons_of_neg (by simp [hfails])]
          exact String.empty_append

end Voice

-- ============================================================== result

/-- A quiet run that ends without a failure prints on standard output, if it
is a check, the path of each file whose header is missing or out of date on
a line of its own, once and in the order in which the files are processed,
and nothing if it is an update. -/
theorem quiet_prints_failing_paths {words : List Text} {env : Environment}
    {tree : Tree} {o : Options} {failed : Bool} {final : Session}
    (hparse : Request.parse words = .ok (.run o)) (hquiet : o.quiet = true)
    (hrun : Command.run o env { tree } = .ok failed final) :
    (∃ files s, Command.Through o env { tree } files failed s
        ∧ final.reports.map FileReport.path = files
        ∧ files.Nodup)
      ∧ (o.check = true →
        (Command.execute words env { tree }).stdout
          = String.join ((final.reports.filter fun r =>
              r.status == .missing || r.status == .outOfDate).map
              fun r => r.path.display ++ "\n"))
      ∧ (o.check = false →
        (Command.execute words env { tree }).stdout = "") := by
  obtain ⟨files, s, hthrough, hsaves⟩ := Command.through_of_run hrun
  obtain ⟨final', hrun', hreports, hevents, -⟩ :=
    Command.run_of_through hthrough hsaves
  obtain rfl : final' = final := by injection hrun'.symm.trans hrun
  obtain ⟨new, hresults, hpaths, hstatus, -⟩ := hthrough.results
  have hnew : final'.reports = new :=
    hreports.trans (congrArg Prod.fst hresults)
  have hmode : (o.voice env).mode = .quiet :=
    (Request.mode_eq_quiet_iff hparse).2 hquiet
  -- what is said at the end is not for a quiet run
  have hend : ∀ e ∈ Command.runVerdicts o (Command.summaryOf env s) failed,
      (o.voice env).stdout e = "" := by
    intro e he
    refine Voice.stdout_eq_empty hmode ?_
    rcases Command.mem_runVerdicts.1 he with ⟨rfl, -⟩ | rfl | ⟨rfl, -⟩ <;> rfl
  have hstdout : (Command.execute words env { tree }).stdout
      = String.join ((final'.reports.filter FileReport.fails).map fun r =>
        r.path.display ++ "\n") := by
    rw [Command.execute_of_run hparse hrun, ← Voice.allStdout_filter hmode,
      Command.verdicts_of_run hthrough hevents, Voice.allStdout_append,
      Voice.allStdout_eq_empty hend, String.append_empty, ← hreports,
      Voice.allStdout_verdicts hmode]
  refine ⟨⟨files, s, hthrough, by rw [hnew, hpaths], hthrough.nodup⟩,
    fun _ => hstdout, fun hupdate => ?_⟩
  rw [hstdout, hnew, List.filter_eq_nil_iff.2, List.map_nil, String.join_nil]
  intro r hr
  rw [hupdate] at hstatus
  simp [FileReport.not_fails_of_update (hstatus r hr)]

/-- The quiet check of a repository with one file that lacks the header. -/
theorem quiet_prints_failing_paths_of_checkout :
    (Command.execute quietWords {} { tree := checkout }).stdout
      = "a.rs\n" := by
  obtain ⟨final, hrun, hreports⟩ := Command.run_checkout
  obtain ⟨-, hcheck, -⟩ :=
    quiet_prints_failing_paths Command.parse_quietWords rfl hrun
  rw [hcheck rfl, hreports]
  cbv

end CopyrightNotice
