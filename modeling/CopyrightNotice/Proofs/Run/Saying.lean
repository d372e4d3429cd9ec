/-
What a run says of its files.

Most of what a run says, it says on the way: details, records of the log,
the line in which a header differs. What came of a file or of the whole
run is said by events of their own (`Event.isVerdict`). Whatever comes
before and between the files is silent on that (`Silent`), and a file that
was looked into is spoken of once, when its report is made
(`said_of_processFile`). So behind a run over files, what was said of them
is what the reports hold, in order (`said_of_processAll`).
-/
import CopyrightNotice.Proofs.Run.Step

namespace CopyrightNotice

-- ============================================================= verdicts

/-- Whether an event tells what came of a file or of the run. -/
def Event.isVerdict : Event → Bool
  | .status .. | .allOk | .summary .. | .hint => true
  | _ => false

/-- What is said of a file, if it was looked into. -/
def FileReport.verdict? (r : FileReport) : Option Event :=
  if r.status = .skipped then none else some (.status r.path r.status)

/-- A report of a skipped file has no verdict to be said. -/
private theorem FileReport.verdict?_of_skipped {r : FileReport}
    (h : r.status = .skipped) : r.verdict? = none :=
  if_pos h

/-- No verdict on a header is that the file was skipped. -/
private theorem FileStatus.ofVerdict_ne_skipped (check : Bool) (v : Verdict) :
    ofVerdict check v ≠ .skipped := by
  cases check <;> cases v <;> decide

/-- A report of a verdict on a header has this verdict to be said. -/
private theorem FileReport.verdict?_of_verdict (path : Path) (check : Bool)
    (v : Verdict) :
    FileReport.verdict? { path, status := .ofVerdict check v }
      = some (.status path (.ofVerdict check v)) :=
  if_neg (FileStatus.ofVerdict_ne_skipped check v)

/-- What a session tells of files and of the run: the reports, and the
verdicts that were said. -/
def Session.results (s : Session) : List FileReport × List Event :=
  (s.reports, s.events.filter Event.isVerdict)

/-- The session after something was said. -/
def Session.saying (s : Session) (new : List Event) : Session :=
  { s with events := s.events ++ new }

/-- What is said in two parts is said in sequence. -/
theorem Session.saying_saying (s : Session) (new more : List Event) :
    (s.saying new).saying more = s.saying (new ++ more) := by
  simp [saying]

/-- Where a header differs is not a verdict. -/
private theorem Session.results_telling (s : Session) (path : Path)
    (m : Option Mismatch) : (s.telling path m).results = s.results := by
  cases m <;> simp [results, telling, Event.isVerdict]

-- ========================================================== silent jobs

namespace Job

variable {α β ε : Type} {j : Job α} {k : α → Job β}

/-- A job that says nothing of what came of files, and notes no report. -/
abbrev Silent (j : Job α) : Prop := Keeps Session.results j

theorem say_eq (e : Event) (s : Session) : say e s = .ok () (s.saying [e]) :=
  rfl

/-- A job goes on behind what is said. -/
theorem say_bind (e : Event) (k : Unit → Job β) (s : Session) :
    (say e >>= k) s = k () (s.saying [e]) := rfl

/-- Whoever says something other than a verdict is silent. -/
theorem silent_say {e : Event} (h : e.isVerdict = false) : Silent (say e) :=
  keeps_modify _ fun s => by simp [Session.results, h]

theorem silent_detail (text : String) : Silent (detail text) := silent_say rfl

theorem silent_log (level : Level) (topic : Topic) (message : String) :
    Silent (log level topic message) :=
  silent_say rfl

private theorem silent_get : Silent get := fun _ => rfl

theorem silent_tree : Silent tree := fun _ => rfl

theorem silent_throw (failure : Failure) : Silent (throw failure : Job α) :=
  fun _ => rfl

/-- What comes of a look that found something is what it found. -/
theorem orFail_of_ok (failure : ε → Failure) {result : Except ε α} {a : α}
    (h : result = .ok a) (s : Session) :
    orFail failure result s = .ok a s := by
  rw [h]
  rfl

/-- A look that may fail says no verdict. -/
theorem silent_orFail (failure : ε → Failure) (result : Except ε α) :
    Silent (orFail failure result) := by
  cases result with
  | ok a => exact keeps_pure _ a
  | error e => exact silent_throw _

/-- A change of the tree says no verdict. -/
theorem silent_change (failure : Fault → Failure) (w : Write) :
    Silent (change failure w) :=
  keeps_bind silent_tree fun _ => keeps_bind (silent_orFail _ _) fun _ =>
    keeps_modify _ fun _ => rfl

end Job

open Job (keeps_bind keeps_pure)

-- ============================================================== filters

namespace Selection

variable (sel : Selection) (path : Path)

/-- To skip a path says no verdict. -/
theorem silent_skip (note : String) (reason : Text) :
    (skip path note reason).Silent :=
  keeps_bind (Job.silent_detail _) fun _ => keeps_pure _ _

/-- A look at an entry says no verdict. -/
private theorem silent_askEntry (found : Except Fault Entry) :
    (askEntry path found).Silent := by
  rcases found with fault | (content | target | _)
  · exact silent_skip _ _ _
  · exact keeps_pure _ _
  · exact silent_skip _ _ _
  · exact silent_skip _ _ _

/-- An answer about a marker is logged and no verdict. -/
private theorem silent_noteAnswer (answer : OptOut.Answer) :
    (noteAnswer answer).Silent :=
  keeps_bind (Job.keeps_modify _ fun _ => rfl) fun _ =>
    Job.keeps_forM fun _ => Job.silent_log _ _ _

/-- The filter for opted-out directories says no verdict. -/
private theorem silent_askOptOut : (sel.askOptOut path).Silent := by
  have hdecider : (sel.optedOutBy path).Silent :=
    keeps_bind Job.silent_get fun _ =>
      keeps_bind (silent_noteAnswer _) fun _ => keeps_pure _ _
  refine keeps_bind hdecider fun decider => ?_
  cases decider with
  | none => exact keeps_pure _ _
  | some dir => exact silent_skip _ _ _

/-- Neither filter says a verdict. -/
private theorem silent_ask (filter : Filter) :
    (sel.ask path filter).Silent := by
  cases filter with
  | workingTree =>
      exact keeps_bind Job.silent_tree fun _ => silent_askEntry _ _
  | optOut => exact sel.silent_askOptOut path

/-- Whether a file is to be looked into is found without a verdict. -/
private theorem silent_consider : (sel.consider path).Silent := by
  unfold consider
  induction sel.filters with
  | nil => exact keeps_pure _ _
  | cons filter more ih =>
      refine keeps_bind (sel.silent_ask path filter) fun answer => ?_
      cases answer with
      | admitted => exact ih
      | skipped reason => exact keeps_pure _ _

end Selection

-- ============================================================= one file

namespace Preview

variable (p : Preview)

/-- A preview begins without a verdict. -/
theorem silent_begin : p.begin.Silent := by
  unfold begin
  split
  · exact keeps_pure _ _
  · exact Job.silent_change _ _

/-- Changes are shown and saved without a verdict. -/
private theorem silent_record (path : Path) (old new : Text) :
    (p.record path old new).Silent := by
  rw [record_eq]
  refine keeps_bind ?_ fun _ => ?_
  · unfold show?
    split
    · exact Job.silent_say rfl
    · exact keeps_pure _ _
  · unfold save?
    split
    · exact keeps_pure _ _
    · exact Job.silent_change _ _

end Preview

namespace Task

variable (t : Task) (path : Path)

/-- What is written for a file, or shown of it, is no verdict. -/
private theorem silent_settle (old : Text) (new? : Option Text) :
    (t.settle path old new?).Silent := by
  unfold settle
  split
  · exact keeps_pure _ _
  · split
    · exact t.preview.silent_record _ _ _
    · exact Job.silent_change _ _

/-- The format of a file is found without a verdict. -/
private theorem silent_formatOf : (t.formatOf path).Silent := by
  unfold formatOf
  split
  · exact keeps_bind (Job.silent_log _ _ _) fun _ => keeps_pure _ _
  · rename_i found _
    cases found.configured with
    | true => exact keeps_bind (Job.silent_detail _) fun _ => keeps_pure _ _
    | false => exact keeps_bind (keeps_pure _ _) fun _ => keeps_pure _ _

/-- Nothing that comes before a file is judged is a verdict. -/
private theorem silent_entrance : (t.entrance path).Silent := by
  refine keeps_bind (t.selection.silent_consider path) fun answer => ?_
  cases answer with
  | skipped reason => exact keeps_pure _ _
  | admitted =>
      refine keeps_bind (t.silent_formatOf path) fun found => ?_
      cases found with
      | none | some => exact keeps_pure _ _

variable {t path} {s s' : Session} {report : FileReport}

/-- A file that is judged is spoken of once, with the outcome that its report
has. -/
private theorem said_of_judge {format : CommentFormat}
    (h : t.judge path format s = .ok report s') :
    s'.results
        = (s.reports,
          s.events.filter Event.isVerdict ++ report.verdict?.toList)
      ∧ ∃ v, report.status = .ofVerdict t.check v := by
  obtain ⟨text, htext⟩ := t.textAt_of_judge path h
  rw [judge_of_text htext] at h
  obtain ⟨_, s₁, hsettled, hrest⟩ := Job.of_bind_eq_ok h
  have hkept := (t.silent_settle path text _).of_ok hsettled
  rw [Session.results_telling] at hkept
  obtain ⟨_, s₂, hsaid, hlast⟩ := Job.of_bind_eq_ok hrest
  cases hsaid
  cases hlast
  refine ⟨?_, _, rfl⟩
  rw [FileReport.verdict?_of_verdict]
  simp only [Session.results, Prod.mk.injEq] at hkept ⊢
  simp [hkept.1, hkept.2, Event.isVerdict]

/-- A file is spoken of if it was looked into, and not if it was skipped. -/
private theorem said_of_processFile
    (h : t.processFile path s = .ok report s') :
    s'.results
        = (s.reports,
          s.events.filter Event.isVerdict ++ report.verdict?.toList)
      ∧ (report.status = .skipped ∨ ∃ v,
        report.status = .ofVerdict t.check v) := by
  rw [processFile_eq] at h
  obtain ⟨answer, s₁, hanswer, hrest⟩ := Job.of_bind_eq_ok h
  have hkept := (t.silent_entrance path).of_ok hanswer
  cases answer with
  | error reason =>
      cases hrest
      rw [hkept, FileReport.verdict?_of_skipped rfl]
      exact ⟨by simp [Session.results], Or.inl rfl⟩
  | ok format =>
      obtain ⟨hsaid, hstatus⟩ := said_of_judge hrest
      simp only [Session.results, Prod.mk.injEq] at hkept
      rw [hkept.1, hkept.2] at hsaid
      exact ⟨hsaid, Or.inr hstatus⟩

-- =============================================================== a run

variable {paths : List Path} {failed : Bool}

/-- Behind a run over files there is a new report for each of them, and what
was said of them is what the reports hold. -/
private theorem said_of_processAll (h : t.processAll paths s = .ok failed s') :
    ∃ new, s'.results
        = (s.reports ++ new,
          s.events.filter Event.isVerdict ++ new.filterMap FileReport.verdict?)
      ∧ ∀ r ∈ new, r.status = .skipped
        ∨ ∃ v, r.status = .ofVerdict t.check v := by
  induction paths generalizing s failed with
  | nil =>
      cases h
      exact ⟨[], by simp [Session.results], nofun⟩
  | cons path paths ih =>
      obtain ⟨report, s₁, failed', hfile, hall, rfl⟩ := of_processAll_cons h
      obtain ⟨new, hresults, hnew⟩ := ih hall
      obtain ⟨hsaid, hreport⟩ := said_of_processFile hfile
      simp only [Session.results, Prod.mk.injEq] at hsaid
      refine ⟨report :: new, ?_, List.forall_mem_cons.2 ⟨hreport, hnew⟩⟩
      rw [hresults, Session.noting, hsaid.1, hsaid.2]
      cases hverdict : report.verdict? <;> simp [hverdict]

/-- What a run over files leaves behind: for each path in order a report and
what was said of it, and the answer whether it was a check that failed. -/
theorem processFiles_ok (h : t.processFiles paths s = .ok failed s') :
    ∃ new, s'.results = (s.reports ++ new,
        s.events.filter Event.isVerdict ++ new.filterMap FileReport.verdict?)
      ∧ new.map FileReport.path = paths
      ∧ (∀ r ∈ new, r.status = .skipped ∨ ∃ v, r.status = .ofVerdict t.check v)
      ∧ failed = (t.check && new.any FileReport.isNonCompliant) := by
  obtain ⟨failed', s₁, hall, hrest⟩ := Job.of_bind_eq_ok h
  obtain ⟨_, s₂, hlogged, hlast⟩ :=
    Job.of_bind_eq_ok (j := Job.log _ _ _) hrest
  have hkept := (Job.silent_log _ _ _).of_ok hlogged
  cases hlast
  obtain ⟨new, hresults, hnew⟩ := said_of_processAll hall
  obtain ⟨new', hreports, hpaths, hfailed⟩ := processAll_ok hall
  have heq : new' = new := by
    have hfst := congrArg Prod.fst hresults
    exact List.append_cancel_left (hreports.symm.trans hfst)
  subst heq
  exact ⟨new', hkept.trans hresults, hpaths, hnew, hfailed⟩

end Task

end CopyrightNotice
