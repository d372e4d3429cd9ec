/-
What becomes of one file, and of a list of them.

A file behind an open entrance is read, judged and settled. It stops the
run if it cannot be read or is no text (`judge_of_error`); the parser never
does (`judge_of_text`). A check without previews then changes nothing
(`judge_check`); an update writes the corrected text to the location that
the path names, if it may (`judge_update`, `judge_update_of_denied`).

A run adds one report for each path, in order, up to the path where it
stops (`processAll_ok`, `processAll_eq_error_iff`).
-/
import CopyrightNotice.Proofs.Header.Partition
import CopyrightNotice.Proofs.Run.Asking

namespace CopyrightNotice

-- ============================================================= one file

/-- The text at a path, or the failure with which a run stops there. -/
def Tree.textAt (t : Tree) (place : Path) : Except Failure Text :=
  match t.read place with
  | .error fault => .error (.readFile place fault)
  | .ok bytes =>
    match Utf8.decode bytes with
    | .error fault => .error (.notText place fault)
    | .ok text => .ok text

/-- What comes of reading a file depends on what it holds and on whether it
may be read. -/
theorem Tree.NamesFile.textAt_eq {t u : Tree} {place : Path} {l : Location}
    {c : Bytes} (ht : t.NamesFile place l c) (hu : u.NamesFile place l c)
    (h : t.unreadable = u.unreadable) : t.textAt place = u.textAt place := by
  unfold textAt
  rw [ht.read_eq, hu.read_eq, h]

/-- A text is read at a place only if the bytes of the file decode to it. -/
theorem Tree.NamesFile.decode_of_textAt {t : Tree} {place : Path}
    {l : Location} {c : Bytes} {text : Text} (h : t.NamesFile place l c)
    (htext : t.textAt place = .ok text) : Utf8.decode c = .ok text := by
  unfold textAt at htext
  rw [h.read_eq] at htext
  split at htext
  · cases htext
  · rename_i heq
    split at heq
    · cases heq
    · cases heq
      split at htext
      · cases htext
      · rename_i hdecode
        cases htext
        exact hdecode

namespace Job

/-- A write that succeeds is noted, with the tree that it leaves. -/
theorem change_of_ok {failure : Fault → Failure} {w : Write} {s : Session}
    {t : Tree} (h : w.apply s.tree = .ok t) :
    change failure w s
      = .ok () { s with tree := t, writes := s.writes ++ [w] } := by
  refine bind_of_ok (j := orFail failure (w.apply s.tree)) (a := t) ?_
  rw [h]
  rfl

theorem change_of_error {failure : Fault → Failure} {w : Write} {s : Session}
    {fault : Fault} (h : w.apply s.tree = .error fault) :
    change failure w s = .error (failure fault) s := by
  refine bind_of_error (j := orFail failure (w.apply s.tree)) ?_
  rw [h]
  rfl

/-- To read a text leaves the session as it is. -/
theorem readText_eq (place : Path) (s : Session) :
    readText place s = match s.tree.textAt place with
      | .ok text => .ok text s
      | .error f => .error f s := by
  change (orFail (.readFile place) (s.tree.read place) >>= fun bytes =>
    orFail (.notText place) (Utf8.decode bytes)) s = _
  unfold Tree.textAt
  cases s.tree.read place with
  | error fault => rfl
  | ok bytes =>
      change orFail (.notText place) (Utf8.decode bytes) s = _
      dsimp only
      cases Utf8.decode bytes <;> rfl

end Job

/-- The session after it was said where a header differs. -/
def Session.telling (s : Session) (path : Path) (m : Option Mismatch) :
    Session :=
  { s with events := s.events ++ (m.map (Event.mismatch path)).toList }

/-- The session after the outcome for a file was said. -/
def Session.stating (s : Session) (path : Path) (status : FileStatus) :
    Session :=
  { s with events := s.events ++ [.status path status] }

/-- The session after the number of files was logged. -/
def Session.counting (s : Session) (count : Nat) : Session :=
  { s with
    events :=
      s.events ++ [.log ⟨.debug, .processing, s!"Processed {count} files"⟩] }

/-- The session with one more report. -/
def Session.noting (s : Session) (report : FileReport) : Session :=
  { s with reports := s.reports ++ [report] }

/-- The session after a file got another text, if it did. -/
def Session.rewriting (s : Session) (place : Path) (l : Location) :
    Option Text → Session
  | none => s
  | some new =>
    { s with
      tree := s.tree.set l (.file (Utf8.encode new))
      writes := s.writes ++ [.replace place (Utf8.encode new)] }

namespace Task

variable {t : Task} {path : Path} {format : CommentFormat} {s : Session}
  {text : Text}

/-- What cannot be read is not judged. -/
theorem judge_of_error {f : Failure}
    (h : s.tree.textAt (t.root.join path) = .error f) :
    t.judge path format s = .error f s := by
  have hread : Job.readText (t.root.join path) s = .error f s := by
    rw [Job.readText_eq, h]
  exact Job.bind_of_error hread

/-- A text is always split at its header; what is left to do is to settle the
difference. -/
theorem judge_of_text (h : s.tree.textAt (t.root.join path) = .ok text) :
    let r := Recognizer.ofNotice t.notice format
    let status := FileStatus.ofVerdict t.check (r.regions text).verdict
    t.judge path format s
      = (t.settle path text (r.correction? (r.regions text))
          >>= fun _ => Job.say (.status path status)
          >>= fun _ => pure ({ path, status } : FileReport))
        (s.telling path (r.regions text).mismatch) := by
  intro r status
  have hread : Job.readText (t.root.join path) s = .ok text s := by
    rw [Job.readText_eq, h]
  refine (Job.bind_of_ok hread).trans ?_
  rw [Recognizer.parse_eq]
  change ((r.regions text).mismatch.forM (fun m => Job.say (.mismatch path m))
      >>= fun _ => t.settle path text (r.correction? (r.regions text))
      >>= fun _ => Job.say (.status path status) >>= fun _ =>
      pure ({ path, status } : FileReport)) s = _
  refine Job.bind_of_ok (a := PUnit.unit) ?_
  cases (r.regions text).mismatch with
  | none => simp [Session.telling, Option.forM, pure, EStateM.pure]
  | some m => rfl

/-- A check that shows and saves no changes makes none. -/
theorem judge_check (hcheck : t.check = true) (hpreview : t.preview = {})
    (h : s.tree.textAt (t.root.join path) = .ok text) :
    let r := Recognizer.ofNotice t.notice format
    let status := FileStatus.ofVerdict true (r.regions text).verdict
    t.judge path format s
      = .ok { path, status }
        ((s.telling path (r.regions text).mismatch).stating path status) := by
  intro r status
  rw [judge_of_text h, hcheck]
  refine Job.bind_of_ok (a := ()) ?_
  unfold settle
  cases r.correction? (r.regions text) with
  | none => rfl
  | some new =>
      simp only [hcheck, if_true, hpreview]
      rfl

/-- An update gives a file the corrected text, if there is one. Only then
does it have to be allowed to write the file. -/
theorem judge_update {l : Location} {c : Bytes} (hcheck : t.check = false)
    (hnames : s.tree.NamesFile (t.root.join path) l c)
    (h : s.tree.textAt (t.root.join path) = .ok text) :
    let r := Recognizer.ofNotice t.notice format
    let status := FileStatus.ofVerdict false (r.regions text).verdict
    (r.correction? (r.regions text) ≠ none → l ∉ s.tree.unwritable) →
    t.judge path format s
      = .ok { path, status }
        (((s.telling path (r.regions text).mismatch).rewriting
          (t.root.join path) l (r.correction? (r.regions text))).stating
            path status) := by
  intro r status hopen
  rw [judge_of_text h, hcheck]
  refine Job.bind_of_ok (a := ()) ?_
  change t.settle path text (r.correction? (r.regions text)) _ = .ok () _
  unfold settle
  cases hnew : r.correction? (r.regions text) with
  | none => rfl
  | some new =>
      have hallowed : l ∉ s.tree.unwritable := hopen (by simp [hnew])
      have hwrite : (Write.replace (t.root.join path) (Utf8.encode new)).apply
          s.tree = .ok (s.tree.set l (.file (Utf8.encode new))) := by
        rw [Write.apply, hnames.write_eq, if_neg (by simpa using hallowed)]
      simp only [hcheck, Bool.false_eq_true, if_false]
      exact Job.change_of_ok hwrite

/-- An update stops at a file that it may not write. -/
theorem judge_update_of_denied {l : Location} {c : Bytes} {new : Text}
    (hcheck : t.check = false)
    (hnames : s.tree.NamesFile (t.root.join path) l c)
    (hdenied : l ∈ s.tree.unwritable)
    (h : s.tree.textAt (t.root.join path) = .ok text) :
    let r := Recognizer.ofNotice t.notice format
    r.correction? (r.regions text) = some new → t.judge path format s
      = .error (.writeFile (t.root.join path) .denied)
        (s.telling path (r.regions text).mismatch) := by
  intro r hnew
  rw [judge_of_text h]
  refine Job.bind_of_error ?_
  change t.settle path text (r.correction? (r.regions text)) _ = _
  have hwrite : (Write.replace (t.root.join path) (Utf8.encode new)).apply
        s.tree
      = .error .denied := by
    rw [Write.apply, hnames.write_eq, if_pos (by simpa using hdenied)]
  rw [hnew, settle, hcheck]
  exact Job.change_of_error hwrite

/-- What an update can do about one file. -/
inductive UpdateStep (t : Task) (path : Path) (u : Session) :
    EStateM.Result Failure Session FileReport → Prop
  | skipped {reason : Text} (r : Reply (Except Text CommentFormat)) :
      UpdateStep t path u (.ok (.skipped path reason) (u.hearing r))
  /-- The file cannot be read as text. -/
  | stopped {failure : Failure} {l : Location} {c : Bytes}
      (r : Reply (Except Text CommentFormat))
      (names : u.tree.NamesFile (t.root.join path) l c)
      (cause : u.tree.textAt (t.root.join path) = .error failure) :
      UpdateStep t path u (.error failure (u.hearing r))
  /-- The file may not be written. -/
  | refused {found : FoundFormat} {text new : Text} {p : Regions}
      {l : Location} {c : Bytes}
      (r : Reply (Except Text CommentFormat))
      (names : u.tree.NamesFile (t.root.join path) l c)
      (format : t.resolver path = some found)
      (reads : u.tree.textAt (t.root.join path) = .ok text)
      (parses : (Recognizer.ofNotice t.notice found.format).parse text = .ok p)
      (corrects : (Recognizer.ofNotice t.notice found.format).correction? p
      = some new)
      (denied : l ∈ u.tree.unwritable) :
      UpdateStep t path u (.error (.writeFile (t.root.join path) .denied)
        ((u.hearing r).telling path p.mismatch))
  | settled {found : FoundFormat} {text : Text} {p : Regions}
      {l : Location} {c : Bytes}
      (r : Reply (Except Text CommentFormat))
      (names : u.tree.NamesFile (t.root.join path) l c)
      (format : t.resolver path = some found)
      (reads : u.tree.textAt (t.root.join path) = .ok text)
      (parses : (Recognizer.ofNotice t.notice found.format).parse text
        = .ok p) :
      UpdateStep t path u (.ok { path, status := .ofVerdict false p.verdict }
        ((((u.hearing r).telling path p.mismatch).rewriting
          (t.root.join path) l
          ((Recognizer.ofNotice t.notice found.format).correction? p)).stating
            path (.ofVerdict false p.verdict)))

/-- A file in an update is passed over, rewritten, or ends the run. -/
theorem updateStep_processFile (hcheck : t.check = false) :
    UpdateStep t path s (t.processFile path s) := by
  obtain ⟨r, hr⟩ := t.asks_entrance path s.tree s.memo
  have hs := hr s (.refl _) rfl
  cases hanswer : r.answer with
  | error reason =>
      rw [hanswer] at hs
      rw [processFile_of_closed hs]
      exact .skipped r
  | ok format =>
      rw [hanswer] at hs
      rw [processFile_of_open hs]
      obtain ⟨⟨l, c, hnames⟩, -, found, hfound, rfl⟩ := open_of_entrance hs
      cases hread : s.tree.textAt (t.root.join path) with
      | error failure =>
          rw [@judge_of_error t path found.format (s.hearing r) failure hread]
          exact .stopped r hnames hread
      | ok text =>
          have hparse :=
            Recognizer.parse_eq (.ofNotice t.notice found.format) text
          by_cases hdenied : l ∈ s.tree.unwritable
              ∧ ∃ new, (Recognizer.ofNotice t.notice found.format).correction?
                ((Recognizer.ofNotice t.notice found.format).regions text)
                  = some new
          · -- a correction that may not be written; it is all that a write can
            -- fail for
            obtain ⟨hdenied, new, hnew⟩ := hdenied
            rw [@judge_update_of_denied t path found.format (s.hearing r)
              text l c new hcheck hnames hdenied hread hnew]
            exact .refused r hnames hfound hread hparse hnew hdenied
          · rw [@judge_update t path found.format (s.hearing r) text l c
              hcheck hnames hread fun hnew hl => hdenied
                ⟨hl, Option.ne_none_iff_exists'.1 hnew⟩]
            exact .settled r hnames hfound hread hparse

/-- An update of one file changes nothing but the file that its path names. -/
theorem UpdateStep.entry_eq
    {result : EStateM.Result Failure Session FileReport} {m : Location}
    (h : UpdateStep t path s result)
    (hm : ∀ c, ¬s.tree.NamesFile (t.root.join path) m c) :
    Tree.entry? (Job.left result).tree m = s.tree.entry? m := by
  cases h with
  | skipped | stopped | refused => rfl
  | @settled found text p l c r names =>
      have hne : m ≠ l := by
        rintro rfl
        exact hm c names
      cases hnew :
        (Recognizer.ofNotice t.notice found.format).correction? p with
      | none => rfl
      | some new => exact Tree.entry?_set_of_ne s.tree _ hne

end Task

-- ================================================================ runs

namespace Job

variable {α β : Type}

/-- A job that only asks and speaks reports nothing. -/
theorem Asks.keepsReports {j : Job α} (h : Asks j) :
    Keeps Session.reports j := by
  intro s
  obtain ⟨r, hr⟩ := h s.tree s.memo
  rw [hr s (.refl _) rfl]
  rfl

/-- A write reports nothing. -/
theorem keepsReports_change (failure : Fault → Failure) (w : Write) :
    Keeps Session.reports (change failure w) := by
  intro s
  cases h : w.apply s.tree with
  | ok t =>
      rw [change_of_ok h]
      rfl
  | error fault =>
      rw [change_of_error h]
      rfl

end Job

namespace Preview

variable (p : Preview) (path : Path)

/-- Shows changes, if they are to be shown. -/
def show? (changes : Text) : Job Unit :=
  if p.shown then Job.say (.preview changes) else pure ()

/-- Saves changes, if they are to be saved. -/
def save? (changes : Text) : Job Unit :=
  match p.saved with
  | none => pure ()
  | some file =>
      Job.change (.openDiff file) (.extend file (Utf8.encode changes))

/-- To record changes is to show them and to save them. -/
theorem record_eq (old new : Text) :
    p.record path old new = p.show? (Diff.render path old new)
      >>= fun _ => p.save? (Diff.render path old new) := by
  unfold record show? save?
  rcases p with ⟨_ | _, _ | file⟩ <;> rfl

/-- To show changes is to speak, and writes nothing. -/
private theorem asks_show? (changes : Text) : (p.show? changes).Asks := by
  unfold show?
  split
  · exact Job.asks_say _
  · exact Job.asks_pure _

/-- To record changes reports nothing. -/
private theorem keepsReports_record (old new : Text) :
    Job.Keeps Session.reports (p.record path old new) := by
  rw [record_eq]
  refine Job.keeps_bind (p.asks_show? _).keepsReports fun _ => ?_
  unfold save?
  split
  · exact Job.keeps_pure _ _
  · exact Job.keepsReports_change _ _

end Preview

namespace Task

variable (t : Task) (path : Path)

/-- To settle a judgement reports nothing. -/
private theorem keepsReports_settle (old : Text) (new? : Option Text) :
    Job.Keeps Session.reports (t.settle path old new?) := by
  unfold settle
  cases new? with
  | none => exact Job.keeps_pure _ _
  | some new =>
      dsimp only
      split
      · exact t.preview.keepsReports_record _ _ _
      · exact Job.keepsReports_change _ _

/-- To judge a file reports nothing. -/
private theorem judge_reports (format : CommentFormat) (s : Session) :
    (Job.left (t.judge path format s)).reports = s.reports := by
  cases h : s.tree.textAt (t.root.join path) with
  | error failure =>
      rw [judge_of_error h]
      rfl
  | ok text =>
      rw [judge_of_text h]
      exact Job.keeps_bind (t.keepsReports_settle _ _ _)
        (fun _ => Job.keeps_bind (Job.asks_say _).keepsReports
          fun _ => Job.keeps_pure _ _) _

/-- A file that is judged could be read. -/
theorem textAt_of_judge {format : CommentFormat} {s s' : Session}
    {report : FileReport} (h : t.judge path format s = .ok report s') :
    ∃ text, s.tree.textAt (t.root.join path) = .ok text := by
  cases htext : s.tree.textAt (t.root.join path) with
  | error failure =>
      rw [judge_of_error htext] at h
      cases h
  | ok text => exact ⟨text, rfl⟩

/-- A judgement is about the file that was asked for. -/
private theorem judge_path {format : CommentFormat} {s s' : Session}
    {report : FileReport} (h : t.judge path format s = .ok report s') :
    report.path = path := by
  obtain ⟨text, htext⟩ := t.textAt_of_judge path h
  rw [judge_of_text htext] at h
  obtain ⟨_, s₁, -, hrest⟩ := Job.of_bind_eq_ok h
  obtain ⟨_, s₂, -, hlast⟩ := Job.of_bind_eq_ok (j := Job.say _) hrest
  injection hlast with hreport
  rw [← hreport]

/-- To process a file reports nothing: the report is noted by the run. -/
theorem keepsReports_processFile :
    Job.Keeps Session.reports (t.processFile path) := by
  rw [processFile_eq]
  refine Job.keeps_bind (t.asks_entrance path).keepsReports fun answer => ?_
  cases answer with
  | error reason => exact Job.keeps_pure _ _
  | ok format => exact t.judge_reports path format

/-- The report on a file names that file. -/
theorem processFile_path {s s' : Session} {report : FileReport}
    (h : t.processFile path s = .ok report s') : report.path = path := by
  rw [processFile_eq] at h
  obtain ⟨answer, s₁, -, hrest⟩ := Job.of_bind_eq_ok h
  cases answer with
  | error reason =>
      injection hrest with hreport
      rw [← hreport]
      rfl
  | ok format => exact t.judge_path path hrest

variable {t path} {paths : List Path} {s s' : Session} {report : FileReport}

/-- A file that is processed is reported, and the run goes on. -/
theorem processAll_of_ok (h : t.processFile path s = .ok report s') :
    t.processAll (path :: paths) s
      = match t.processAll paths (s'.noting report) with
      | .ok failed s₁ => .ok (t.check && report.isNonCompliant || failed) s₁
      | .error failure s₁ => .error failure s₁ := by
  refine (Job.bind_of_ok h).trans ?_
  change (t.processAll paths >>= fun failed =>
    pure (t.check && report.isNonCompliant || failed)) (s'.noting report) = _
  simp only [bind, EStateM.bind]
  split <;> rename_i hrest <;> rw [hrest]
  rfl

theorem processAll_of_error {failure : Failure}
    (h : t.processFile path s = .error failure s') :
    t.processAll (path :: paths) s = .error failure s' :=
  Job.bind_of_error h

/-- A run that gets through a path and the paths behind it gets through the
file there and, once its report is noted, through the others. -/
theorem of_processAll_cons {failed : Bool}
    (h : t.processAll (path :: paths) s = .ok failed s') :
    ∃ report s₁ failed', t.processFile path s = .ok report s₁
      ∧ t.processAll paths (s₁.noting report) = .ok failed' s'
      ∧ failed = (t.check && report.isNonCompliant || failed') := by
  cases hfile : t.processFile path s with
  | error failure s₁ =>
      rw [processAll_of_error hfile] at h
      cases h
  | ok report s₁ =>
      rw [processAll_of_ok hfile] at h
      cases hall : t.processAll paths (s₁.noting report) with
      | error failure s₂ =>
          rw [hall] at h
          cases h
      | ok failed' s₂ =>
          rw [hall] at h
          cases h
          exact ⟨report, s₁, failed', rfl, hall, rfl⟩

/-- A run that comes to its end has one report for each path, in order, and
says whether it was a check that failed. -/
theorem processAll_ok {failed : Bool}
    (h : t.processAll paths s = .ok failed s') :
    ∃ new, s'.reports = s.reports ++ new
      ∧ new.map FileReport.path = paths
      ∧ failed = (t.check && new.any FileReport.isNonCompliant) := by
  induction paths generalizing s failed with
  | nil =>
      cases h
      exact ⟨[], by simp⟩
  | cons path paths ih =>
      obtain ⟨report, s₁, failed', hfile, hall, rfl⟩ := of_processAll_cons h
      obtain ⟨new, hreports, hpaths, rfl⟩ := ih hall
      have hkept : s₁.reports = s.reports :=
        (t.keepsReports_processFile path).of_ok hfile
      refine ⟨report :: new, ?_, ?_, ?_⟩
      · rw [hreports, Session.noting, hkept]
        simp
      · rw [List.map_cons, hpaths, t.processFile_path path hfile]
      · rw [List.any_cons, Bool.and_or_distrib_left]

/-- A run over paths and more paths goes on where the first ones end. -/
private theorem processAll_append {before after : List Path} {failed : Bool}
    (h : t.processAll before s = .ok failed s') :
    t.processAll (before ++ after) s = match t.processAll after s' with
      | .ok failed' s₁ => .ok (failed || failed') s₁
      | .error failure s₁ => .error failure s₁ := by
  induction before generalizing s failed with
  | nil =>
      cases h
      rw [List.nil_append]
      split <;> rename_i hrest <;> rw [hrest]
      rfl
  | cons path before ih =>
      obtain ⟨report, s₁, failed', hfile, hall, rfl⟩ := of_processAll_cons h
      rw [List.cons_append, processAll_of_ok hfile, ih hall]
      cases t.processAll after s' <;> simp [Bool.or_assoc]

/-- A run that stops on its way does not come to what stands behind. -/
private theorem processAll_append_of_error {before after : List Path}
    {failure : Failure} (h : t.processAll before s = .error failure s') :
    t.processAll (before ++ after) s = .error failure s' := by
  induction before generalizing s with
  | nil => cases h
  | cons path before ih =>
      cases hfile : t.processFile path s with
      | error failure' s₁ =>
          rw [processAll_of_error hfile] at h
          rwa [List.cons_append, processAll_of_error hfile]
      | ok report s₁ =>
          rw [processAll_of_ok hfile] at h
          cases hall : t.processAll before (s₁.noting report) with
          | ok failed s₂ =>
              rw [hall] at h
              cases h
          | error failure' s₂ =>
              rw [hall] at h
              cases h
              rw [List.cons_append, processAll_of_ok hfile, ih hall]

/-- A run stops at a path if it gets through the paths in front of it and
not through the file there. -/
theorem processAll_eq_error_iff {failure : Failure} :
    t.processAll paths s = .error failure s' ↔
      ∃ before path after failed s₁, paths = before ++ path :: after
        ∧ t.processAll before s = .ok failed s₁
        ∧ t.processFile path s₁ = .error failure s' := by
  constructor
  · intro h
    induction paths generalizing s with
    | nil => cases h
    | cons path paths ih =>
        cases hfile : t.processFile path s with
        | error failure' s₁ =>
            rw [processAll_of_error hfile] at h
            cases h
            exact ⟨[], path, paths, false, s, rfl, rfl, hfile⟩
        | ok report s₁ =>
            rw [processAll_of_ok hfile] at h
            cases hall : t.processAll paths (s₁.noting report) with
            | ok failed s₂ =>
                rw [hall] at h
                cases h
            | error failure' s₂ =>
                rw [hall] at h
                cases h
                obtain ⟨before, last, after, failed, s₃, rfl, hbefore,
                    hlast⟩ := ih hall
                exact ⟨path :: before, last, after, _, s₃, rfl,
                  by rw [processAll_of_ok hfile, hbefore], hlast⟩
  · rintro ⟨before, path, after, failed, s₁, rfl, hbefore, hfile⟩
    rw [processAll_append hbefore, processAll_of_error hfile]

/-- What a run comes to is what its paths come to; at the end the number of
files is logged. -/
theorem processFiles_of_ok {failed : Bool}
    (h : t.processAll paths s = .ok failed s') :
    t.processFiles paths s = .ok failed (s'.counting paths.length) :=
  Job.bind_of_ok h

/-- A run that stops logs no number. -/
theorem processFiles_of_error {failure : Failure}
    (h : t.processAll paths s = .error failure s') :
    t.processFiles paths s = .error failure s' :=
  Job.bind_of_error h

/-- No write of the run is refused. -/
def WritesSucceed (t : Task) (tree : Tree) (paths : List Path) : Prop :=
  ∀ place fault s,
    (t.processFiles paths).run { tree } ≠ .error (.writeFile place fault) s

/-- How a run ends tells whether its writes succeed. -/
theorem writesSucceed_of_outcome {tree : Tree} {result : Except Failure Bool}
    (h : Job.outcome ((t.processFiles paths).run { tree }) = result)
    (hresult : ∀ place fault, result ≠ .error (.writeFile place fault)) :
    t.WritesSucceed tree paths := by
  intro place fault s hs
  rw [hs] at h
  exact hresult place fault h.symm

/-- Where all writes succeed, no part of the paths ends with a refusal. -/
theorem WritesSucceed.processAll_ne {tree : Tree} {before after : List Path}
    (h : t.WritesSucceed tree (before ++ after)) (place : Path)
    (fault : Fault) (s : Session) :
    t.processAll before { tree } ≠ .error (.writeFile place fault) s :=
  fun hbefore => h place fault s
    (processFiles_of_error (processAll_append_of_error hbefore))

end Task

end CopyrightNotice
