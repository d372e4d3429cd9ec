/-
A check that shows and saves the changes which an update would make.

Next to it goes the same check without a preview. The two sessions are
abreast (`Abreast`): all that the first one has more is the file that it
saves to, which holds the changes so far, and the events that show them.

The questions about a path are answered alike on both sides
(`Task.unmoved_entrance`) if the path does not name the save file and if
emptying that file put no marker above the path. A file that is judged then
holds one text on both sides, and its changes are recorded once if its header
is not as it should be (`Task.paired_judge`). The markers have to be looked at:
a save file with the marker's name opts its own directory out
(`preview_opts_out`).
-/
import CopyrightNotice.Proofs.Command.Quiet
import CopyrightNotice.Proofs.Run.Hidden
import CopyrightNotice.Proofs.Text.Utf8
import Mathlib.Data.Option.Basic

namespace CopyrightNotice

open CopyrightNotice.Tree (Alike Grown)

-- ====================================================== beside a new file

namespace Tree

variable {t u : Tree} {links : Nat} {l e : Location}
  {todo : List Bytes} {p : Path}

/-- A walk to the place of a file arrives once the file is there. -/
private theorem Arrives.made {c : Bytes} (h : Arrives t .place links l todo e)
    (hkept : Kept t u) (hfile : u.entry? e = some (.file c)) :
    Arrives u .target links l todo e := by
  induction h with
  | done => exact .done
  | stay dir hvoid _ ih => exact .stay (hkept.directory dir) hvoid (ih hfile)
  | up dir _ ih => exact .up (hkept.directory dir) (ih hfile)
  | free dir name _ entry =>
      exact .enter (hkept.directory dir) name (by simp) hfile (by simp) .done
  | link _ _ hgoal => cases hgoal
  | follow dir name _ _ entry _ ih =>
      exact .follow (hkept.directory dir) name (by simp) (by simp)
        (hkept.link entry) (ih hfile)
  | enter dir name _ found solid _ ih =>
      obtain ⟨e', he', hshell⟩ := hkept _ _ found
      refine .enter (hkept.directory dir) name (by simp) he'
        (fun target htarget => ?_) (ih hfile)
      rw [htarget] at hshell
      exact solid target (Entry.shell_eq_link.1 hshell.symm)

/-- A file that a path leads to is the one that is opened there. -/
private theorem openFile_of_target {c : Bytes}
    (hl : t.locate .target p = .ok l) (hfile : t.entry? l = some (.file c)) :
    t.openFile p
      = if t.unwritable.contains l then .error .denied else .ok (l, c) := by
  obtain ⟨hnul, hne, hshort, harrives⟩ := locate_eq_ok_iff.1 hl
  have hplace : t.locate .place p = .ok l :=
    locate_eq_ok_iff.2 ⟨hnul, hne, hshort, harrives.place_of_file hfile⟩
  simp only [openFile, hplace, bind, Except.bind, hfile]

/-- The tree `u` is `t`, but for files at some places, which may be new. -/
structure Beside (t u : Tree) (place : Location → Prop) : Prop where
  grown : Grown t u
  unreadable : t.unreadable = u.unreadable
  elsewhere : ∀ l, ¬place l → u.entry? l = t.entry? l

variable {place : Location → Prop}

/-- A path that names none of the files leads to the same entry, or to none. -/
private theorem Beside.askEntry_eq (h : Beside t u place)
    (hp : ∀ l, u.locate .itself p = .ok l → ¬place l) (path : Path) :
    Selection.askEntry path (u.entryAt p)
      = Selection.askEntry path (t.entryAt p) := by
  have hmissing {found : Except Fault Entry} {fault : Fault}
      (hfound : found = .error fault) : Selection.askEntry path found
      = Selection.askEntry path (.error .notFound) := by
    rw [hfound]
    rfl
  cases ht : t.locate .itself p with
  | ok e =>
      -- what the path led to it leads to still, and nothing was changed there
      obtain ⟨hnul, hne, hshort, harrives⟩ := locate_eq_ok_iff.1 ht
      have hu : u.locate .itself p = .ok e := locate_eq_ok_iff.2
        ⟨hnul, hne, hshort,
          h.grown.here ▸ harrives.grow h.grown.kept (by simp)⟩
      rw [entryAt, entryAt, ht, hu]
      simp only [bind, Except.bind, h.elsewhere e (hp e hu)]
  | error fault =>
      have hold : t.entryAt p = .error fault := by rw [entryAt, ht]; rfl
      rw [hmissing hold]
      cases hu : u.locate .itself p with
      | error fault' => exact hmissing (by rw [entryAt, hu]; rfl)
      | ok e =>
          obtain ⟨hnul, hne, hshort, harrives⟩ := locate_eq_ok_iff.1 hu
          have hsame := h.elsewhere e (hp e hu)
          cases hentry : t.entry? e with
          | none =>
              have hnone : u.entryAt p = .error .notFound := by
                rw [entryAt, hu]
                simp only [bind, Except.bind, hsame, hentry]
              exact hmissing hnone
          | some entry =>
              have hback : t.locate .itself p = .ok e := locate_eq_ok_iff.2
                ⟨hnul, hne, hshort,
                  h.grown.here ▸ harrives.ungrow h.grown (by simp [hentry])⟩
              rw [hback] at ht
              cases ht

end Tree

open CopyrightNotice.Tree (Beside)

/-- Directories that answer alike give one answer together. -/
private theorem OptOut.firstOf_congr (o : OptOut) {t u : Tree}
    {dirs : List Path} (memo : Memo)
    (h : ∀ dir ∈ dirs, o.holds t dir = o.holds u dir) :
    o.firstOf t memo dirs = o.firstOf u memo dirs := by
  induction dirs generalizing memo with
  | nil => rfl
  | cons dir dirs ih =>
      obtain ⟨hfirst, hrest⟩ := List.forall_mem_cons.1 h
      simp only [firstOf, hfirst, ih _ hrest]

-- ============================================================== abreast

/-- Whether an event shows changes. -/
def Event.isPreview : Event → Bool
  | .preview _ => true
  | _ => false

/-- Where the preview is saved. -/
def Preview.SavesAt (p : Preview) (tree : Tree) (l : Location) : Prop :=
  ∃ file, p.saved = some file ∧ tree.locate .target file = .ok l

/-- The save file is there and may be written. -/
def Preview.Ready (p : Preview) (tree : Tree) : Prop :=
  ∀ file, p.saved = some file → ∃ l,
    tree.locate .target file = .ok l ∧ l ∉ tree.unwritable

/-- The task without a preview. -/
def Task.plain (t : Task) : Task := { t with preview := {} }

/-- A check `s` that previews changes and the same check `u` without a
preview. They began with `emptied` and with `tree`; the changes are those that
were previewed so far. -/
structure Abreast (p : Preview) (emptied tree : Tree) (changes : List Text)
    (s u : Session) : Prop where
  kept : u.tree = tree
  alike : Alike emptied s.tree
  elsewhere : ∀ l, ¬p.SavesAt emptied l → s.tree.entry? l = tree.entry? l
  saved : ∀ l, p.SavesAt emptied l →
    s.tree.entry? l = some (.file (Utf8.encode changes.flatten))
  shown : s.events.filter Event.isPreview = if p.shown
    then changes.map Event.preview else []
  said : s.events.filter (!·.isPreview) = u.events
  memo : s.memo = u.memo
  reports : s.reports = u.reports

variable {p : Preview} {emptied tree : Tree} {changes : List Text}
  {s u : Session}

namespace Abreast

/-- What does not preview anything is said on both sides. -/
theorem saying (h : Abreast p emptied tree changes s u) {new : List Event}
    (hnew : ∀ e ∈ new, e.isPreview = false) :
    Abreast p emptied tree changes (s.saying new) (u.saying new) where
  kept := h.kept
  alike := h.alike
  elsewhere := h.elsewhere
  saved := h.saved
  shown := by
    have hnone : new.filter Event.isPreview = [] :=
      List.filter_eq_nil_iff.2 fun e he => by simp [hnew e he]
    rw [Session.saying, List.filter_append, hnone, List.append_nil, h.shown]
  said := by
    have hall : new.filter (!·.isPreview) = new :=
      List.filter_eq_self.2 fun e he => by simp [hnew e he]
    rw [Session.saying, List.filter_append, hall, h.said, Session.saying]
  memo := h.memo
  reports := h.reports

theorem remember (h : Abreast p emptied tree changes s u)
    (memo : OptOut.Memo) :
    Abreast p emptied tree changes { s with memo } { u with memo } :=
  ⟨h.kept, h.alike, h.elsewhere, h.saved, h.shown, h.said, rfl, h.reports⟩

/-- Both runs note the same report. -/
theorem noting (h : Abreast p emptied tree changes s u) (report : FileReport) :
    Abreast p emptied tree changes (s.noting report) (u.noting report) :=
  ⟨h.kept, h.alike, h.elsewhere, h.saved, h.shown, h.said, h.memo,
    congrArg (· ++ [report]) h.reports⟩

end Abreast

namespace Job

variable {α β : Type}

/-- A job that goes on in the same way with a preview and without. -/
abbrev Unmoved (p : Preview) (emptied tree : Tree) (changes : List Text)
    (j : Job α) : Prop :=
  Blind (Abreast p emptied tree changes) j

/-- To say something that is no preview keeps two runs abreast. -/
theorem unmoved_say {e : Event} (he : e.isPreview = false) :
    Unmoved p emptied tree changes (say e) := fun _ _ h =>
  .ok (h.saying (by simpa using he))

/-- A list of jobs that keep two runs abreast keeps them so. -/
theorem unmoved_forM {l : List β} {j : β → Job PUnit}
    (h : ∀ b, Unmoved p emptied tree changes (j b)) :
    Unmoved p emptied tree changes (l.forM j) := by
  induction l with
  | nil => exact blind_pure _
  | cons b l ih => exact blind_bind (h b) fun _ => ih

end Job

open Job (blind_bind blind_pure unmoved_say unmoved_forM both_bind)

-- ============================================================= entrance

namespace Selection

variable (sel : Selection) (path : Path)

theorem unmoved_skip (note : String) (reason : Text) :
    Job.Unmoved p emptied tree changes (skip path note reason) :=
  blind_bind (unmoved_say rfl) fun _ => blind_pure _

/-- A look at an entry that both found keeps them abreast. -/
private theorem unmoved_askEntry (found : Except Fault Entry) :
    Job.Unmoved p emptied tree changes (askEntry path found) := by
  rcases found with fault | (content | target | _)
  · exact unmoved_skip _ _ _
  · exact blind_pure _
  · exact unmoved_skip _ _ _
  · exact unmoved_skip _ _ _

/-- An answer about a marker that both got keeps them abreast. -/
private theorem unmoved_noteAnswer (answer : OptOut.Answer) :
    Job.Unmoved p emptied tree changes (noteAnswer answer) :=
  blind_bind (fun _ _ h => .ok (h.remember answer.memo)) fun _ =>
    unmoved_forM fun _ => unmoved_say rfl

/-- The files of a path and the markers above it are the same with the save
file and without it. -/
structure Untouched (p : Preview) (emptied tree : Tree) : Prop where
  beside : Beside tree emptied (p.SavesAt emptied)
  unnamed : ∀ l, emptied.locate .itself (sel.optOut.root.join path) = .ok l →
    ¬p.SavesAt emptied l
  unmarked : ∀ dir ∈ path.enclosing,
    sel.optOut.holds emptied dir = true → sel.optOut.holds tree dir = true

variable {sel path}

/-- The filter for the working tree finds the same in both trees at a path that
the save file does not touch. -/
private theorem unmoved_askWorkingTree
    (huntouched : sel.Untouched path p emptied tree) :
    Job.Unmoved p emptied tree changes (sel.askWorkingTree path) := by
  intro s u h
  change Both _ (askEntry path (s.tree.entryAt (sel.optOut.root.join path)) s)
    (askEntry path (u.tree.entryAt (sel.optOut.root.join path)) u)
  rw [← askEntry_congr path (h.alike.entryAt_shell _),
    huntouched.beside.askEntry_eq huntouched.unnamed, h.kept]
  exact unmoved_askEntry _ _ s u h

/-- The filter for opted-out directories gets the same answer in both trees at
such a path. -/
private theorem unmoved_askOptOut
    (huntouched : sel.Untouched path p emptied tree) :
    Job.Unmoved p emptied tree changes (sel.askOptOut path) := by
  have hdecider : Job.Unmoved p emptied tree changes
      (sel.optedOutBy path) := by
    intro s u h
    have hholds : ∀ dir ∈ path.enclosing,
        sel.optOut.holds s.tree dir = sel.optOut.holds u.tree dir := by
      intro dir hdir
      rw [h.kept, ← sel.optOut.holds_eq h.alike, Bool.eq_iff_iff]
      exact ⟨huntouched.unmarked dir hdir, huntouched.beside.grown.leadsTo⟩
    have hask : sel.optOut.ask s.tree s.memo path
        = sel.optOut.ask u.tree u.memo path := by
      rw [h.memo]
      exact sel.optOut.firstOf_congr _ hholds
    change Both _
      ((noteAnswer (sel.optOut.ask s.tree s.memo path)
        >>= fun _ => pure (sel.optOut.ask s.tree s.memo path).decider) s)
      ((noteAnswer (sel.optOut.ask u.tree u.memo path)
        >>= fun _ => pure (sel.optOut.ask u.tree u.memo path).decider) u)
    rw [hask]
    exact blind_bind (unmoved_noteAnswer _) (fun _ => blind_pure _) s u h
  refine blind_bind hdecider fun decider => ?_
  cases decider with
  | none => exact blind_pure _
  | some dir => exact unmoved_skip _ _ _

/-- Whether a file is looked into is found alike in both trees. -/
private theorem unmoved_consider
    (huntouched : sel.Untouched path p emptied tree) :
    Job.Unmoved p emptied tree changes (sel.consider path) := by
  unfold consider
  induction sel.filters with
  | nil => exact blind_pure _
  | cons filter more ih =>
      have hask : Job.Unmoved p emptied tree changes
          (sel.ask path filter) := by
        cases filter with
        | workingTree => exact unmoved_askWorkingTree huntouched
        | optOut => exact unmoved_askOptOut huntouched
      refine blind_bind hask fun answer => ?_
      cases answer with
      | admitted => exact ih
      | skipped reason => exact blind_pure _

end Selection

namespace Task

variable {t : Task} {path : Path} {paths : List Path} {format : CommentFormat}

/-- The format of a file is found alike, since no tree is looked at. -/
private theorem unmoved_formatOf (t : Task) (path : Path) :
    Job.Unmoved p emptied tree changes (t.formatOf path) := by
  unfold formatOf
  cases t.resolver path with
  | none => exact blind_bind (unmoved_say rfl) fun _ => blind_pure _
  | some found =>
      by_cases hconf : found.configured = true
      · simp only [hconf, if_true]
        exact blind_bind (unmoved_say rfl) fun _ => blind_pure _
      · simp only [if_neg hconf]
        exact blind_bind (blind_pure _) fun _ => blind_pure _

/-- Whether a file is looked into, and in which format, does not depend on the
preview. -/
private theorem unmoved_entrance
    (huntouched : t.selection.Untouched path p emptied tree) :
    Job.Unmoved p emptied tree changes (t.entrance path) := by
  refine blind_bind (Selection.unmoved_consider huntouched) fun answer => ?_
  cases answer with
  | skipped reason => exact blind_pure _
  | admitted =>
      refine blind_bind (t.unmoved_formatOf path) fun found => ?_
      cases found with
      | none => exact blind_pure _
      | some format => exact blind_pure _

-- ============================================================== changes

/-- The changes that an update would make to the file at a path. -/
def changesAt (t : Task) (tree : Tree) (path : Path) : Option Text := do
  let found ← t.resolver path
  let text ← (tree.textAt (t.root.join path)).toOption
  let r := Recognizer.ofNotice t.notice found.format
  let regions ← (r.parse text).toOption
  let new ← r.correction? regions
  return Diff.render path text new

/-- The changes to the files that reports find fault with, in order. -/
def changesOf (t : Task) (tree : Tree) (reports : List FileReport) :
    List (Option Text) :=
  (reports.filter FileReport.fails).map fun r => t.changesAt tree r.path

/-- The changes for two lists of reports come one after the other. -/
private theorem changesOf_append (t : Task) (tree : Tree)
    (reports more : List FileReport) :
    t.changesOf tree (reports ++ more)
      = t.changesOf tree reports ++ t.changesOf tree more := by
  rw [changesOf, List.filter_append, List.map_append]
  rfl

/-- The changes for a file are those from its text to the corrected one. -/
theorem changesAt_eq {found : FoundFormat} {text : Text}
    (hfound : t.resolver path = some found)
    (htext : tree.textAt (t.root.join path) = .ok text) :
    t.changesAt tree path
      = ((Recognizer.ofNotice t.notice found.format).correction?
        ((Recognizer.ofNotice t.notice found.format).regions text)).map
        (Diff.render path text) := by
  simp only [changesAt, hfound, htext, Recognizer.parse_eq, Except.toOption,
    Option.bind_eq_bind, Option.bind_some]
  cases (Recognizer.ofNotice t.notice found.format).correction? _ <;> rfl

/-- A check finds fault with a file if an update would change it. -/
private theorem fails_eq_isSome (path : Path) (r : Recognizer) (text : Text) :
    FileReport.fails
        { path, status := .ofVerdict true (r.regions text).verdict }
      = (r.correction? (r.regions text)).isSome := by
  unfold Recognizer.correction? FileReport.fails
  cases (r.regions text).verdict <;> rfl

/-- A report of a file that was judged stands for its changes, if it fails. -/
private theorem changesOf_judged {found : FoundFormat} {text : Text}
    (hfound : t.resolver path = some found)
    (htext : tree.textAt (t.root.join path) = .ok text) :
    let r := Recognizer.ofNotice t.notice found.format
    t.changesOf tree
        [{ path, status := .ofVerdict true (r.regions text).verdict }]
      = (r.correction? (r.regions text)).toList.map fun new =>
          some (Diff.render path text new) := by
  intro r
  have hat : t.changesAt tree path = (r.correction? (r.regions text)).map _ :=
    changesAt_eq hfound htext
  rw [changesOf, List.filter_singleton, fails_eq_isSome]
  cases hnew : r.correction? (r.regions text) with
  | none => rfl
  | some new =>
      rw [hnew] at hat
      exact congrArg (fun changes => [changes]) hat

end Task

namespace Preview

/-- Changes are shown if they are to be shown, and nothing else is done. -/
private theorem show?_eq (p : Preview) (new : Text) (s : Session) :
    p.show? new s
      = .ok () (s.saying (if p.shown then [.preview new] else [])) := by
  unfold show?
  split
  · rfl
  · simp [Session.saying, pure, EStateM.pure]

/-- Changes that are saved stand at the end of the file. -/
private theorem save?_eq {file : Path} {l : Location} {old : Bytes}
    (new : Text) (hfile : p.saved = some file)
    (hl : s.tree.locate .target file = .ok l)
    (hold : s.tree.entry? l = some (.file old))
    (hopen : l ∉ s.tree.unwritable) :
    p.save? new s
      = .ok () { s with
          tree := s.tree.set l (.file (old ++ Utf8.encode new))
          writes := s.writes ++ [.extend file (Utf8.encode new)] } := by
  have hopened := Tree.openFile_of_target hl hold
  rw [if_neg (by simpa using hopen)] at hopened
  have happly : (Write.extend file (Utf8.encode new)).apply s.tree
      = .ok (s.tree.set l (.file (old ++ Utf8.encode new))) := by
    rw [Write.apply_eq]
    simp only [Write.path, hopened, bind, Except.bind, Write.result]
  simp only [save?, hfile]
  exact Job.change_of_ok happly

end Preview

namespace Abreast

/-- New changes are shown to those who are to see them, and nothing else is
said. -/
private theorem events_record (h : Abreast p emptied tree changes s u)
    (new : Text) :
    let events := s.events ++ if p.shown then [.preview new] else []
    events.filter Event.isPreview
        = (if p.shown then (changes ++ [new]).map Event.preview else [])
      ∧ events.filter (!·.isPreview) = u.events := by
  intro events
  constructor
  · rw [List.filter_append, h.shown]
    split <;> simp [Event.isPreview]
  · rw [List.filter_append, h.said]
    split <;> simp [Event.isPreview]

/-- The changes to one more file are shown and saved, and that is all. -/
theorem record (h : Abreast p emptied tree changes s u)
    (hready : p.Ready emptied) (path : Path) (old new : Text) :
    ∃ s', p.record path old new s = .ok () s'
      ∧ Abreast p emptied tree (changes ++ [Diff.render path old new])
        s' u := by
  obtain ⟨hshown, hsaid⟩ := h.events_record (Diff.render path old new)
  rw [Preview.record_eq]
  have hshow := p.show?_eq (Diff.render path old new) s
  cases hfile : p.saved with
  | none =>
      have hsave (s : Session) : p.save? (Diff.render path old new) s
          = .ok () s := by
        simp only [Preview.save?, hfile]
        rfl
      refine ⟨_, (Job.bind_of_ok hshow).trans (hsave _),
        h.kept, h.alike, h.elsewhere, ?_, hshown, hsaid, h.memo, h.reports⟩
      rintro l ⟨file, hsome, -⟩
      rw [hfile] at hsome
      cases hsome
  | some file =>
      obtain ⟨l, hl, hopen⟩ := hready file hfile
      have hold := h.saved l ⟨file, hfile, hl⟩
      -- a file is not the top of the tree
      have hne : l ≠ [] := by
        rintro rfl
        cases hold
      have hsave {events : List Event} :=
        Preview.save?_eq (s := s.saying events) (Diff.render path old new)
          hfile (h.alike.locate_eq .target file ▸ hl) hold
          (h.alike.unwritable ▸ hopen)
      refine ⟨_, (Job.bind_of_ok hshow).trans hsave, h.kept,
        h.alike.trans (Tree.alike_set hold _), fun m hm => ?_, fun m hm => ?_,
        hshown, hsaid, h.memo, h.reports⟩
      · have hml : m ≠ l := fun heq => hm (heq ▸ ⟨file, hfile, hl⟩)
        exact (Tree.entry?_set_of_ne _ _ hml).trans (h.elsewhere m hm)
      · obtain ⟨other, hother, hm⟩ := hm
        obtain rfl : file = other := Option.some.inj (hfile.symm.trans hother)
        obtain rfl : l = m := Except.ok.inj (hl.symm.trans hm)
        rw [List.flatten_append, List.flatten_singleton, Utf8.encode_append]
        exact Tree.entry?_set_self _ _ hne

end Abreast

-- ================================================================= runs

namespace Task

variable {t : Task} {path : Path} {paths : List Path} {report : FileReport}
  {s' : Session}

/-- What comes of a file with a preview and without: both checks report the
same and go on abreast, with the changes to the file previewed, or both
stop. -/
inductive Paired (t : Task) (emptied tree : Tree) (changes : List Text) :
    EStateM.Result Failure Session FileReport →
    EStateM.Result Failure Session FileReport → Prop
  | ok {report s u more}
      (h : Abreast t.preview emptied tree (changes ++ more) s u)
      (hmore : t.changesOf tree [report] = more.map some) :
      Paired t emptied tree changes (.ok report s) (.ok report u)
  | error {failure s u} (h : Abreast t.preview emptied tree changes s u) :
      Paired t emptied tree changes (.error failure s) (.error failure u)

/-- A check with a preview judges a file as the plain one does, and shows and
saves its changes. -/
private theorem paired_judge {found : FoundFormat} (hcheck : t.check = true)
    (hready : t.preview.Ready emptied)
    (h : Abreast t.preview emptied tree changes s u)
    (hfound : t.resolver path = some found)
    (htext : s.tree.textAt (t.root.join path)
      = tree.textAt (t.root.join path)) :
    Paired t emptied tree changes (t.judge path found.format s)
      (t.plain.judge path found.format u) := by
  -- both runs read the text of the tree without the preview
  have hkept : u.tree.textAt (t.plain.root.join path)
      = tree.textAt (t.root.join path) :=
    congrArg (Tree.textAt · _) h.kept
  cases htree : tree.textAt (t.root.join path) with
  | error failure =>
      rw [judge_of_error (htext.trans htree),
        judge_of_error (hkept.trans htree)]
      exact .error h
  | ok text =>
      let r := Recognizer.ofNotice t.notice found.format
      let status := FileStatus.ofVerdict true (r.regions text).verdict
      let told (s : Session) : Session :=
        s.telling path (r.regions text).mismatch
      have hplain : t.plain.judge path found.format u
          = .ok { path, status } ((told u).stating path status) :=
        judge_check hcheck rfl (hkept.trans htree)
      have hjudge {s₁ : Session}
          (hsettle : t.settle path text (r.correction? (r.regions text))
            (told s) = .ok () s₁) :
          t.judge path found.format s
            = .ok { path, status } (s₁.stating path status) := by
        rw [judge_of_text (htext.trans htree), hcheck]
        exact Job.bind_of_ok hsettle
      have hchanges : t.changesOf tree [{ path, status }]
          = (r.correction? (r.regions text)).toList.map fun new =>
            some (Diff.render path text new) := changesOf_judged hfound htree
      have htold : Abreast t.preview emptied tree changes (told s) (told u) :=
        h.saying fun e he => by
          cases hm : (r.regions text).mismatch <;> simp_all [Event.isPreview]
      cases hnew : r.correction? (r.regions text) with
      -- nothing to correct, nothing to preview
      | none =>
          rw [hnew] at hchanges
          have hsettle : t.settle path text
                (r.correction? (r.regions text)) (told s)
              = .ok () (told s) := by
            rw [hnew]
            rfl
          have hstated : Abreast t.preview emptied tree (changes ++ [])
              ((told s).stating path status)
              ((told u).stating path status) := by
            rw [List.append_nil]
            exact htold.saying (by simp [Event.isPreview])
          rw [hjudge hsettle, hplain]
          exact .ok hstated hchanges
      -- the run with the preview records the changes, the other one goes by
      | some new =>
          rw [hnew] at hchanges
          obtain ⟨s₁, hrecord, h₁⟩ := htold.record hready path text new
          have hsettle : t.settle path text
                (r.correction? (r.regions text)) (told s)
              = .ok () s₁ := by
            simp only [hnew, settle, hcheck, if_true, hrecord]
          rw [hjudge hsettle, hplain]
          exact .ok (h₁.saying (by simp [Event.isPreview])) hchanges

/-- A file that does not name the save file is processed as without a
preview. -/
private theorem paired_processFile (hcheck : t.check = true)
    (hready : t.preview.Ready emptied)
    (huntouched : t.selection.Untouched path t.preview emptied tree)
    (h : Abreast t.preview emptied tree changes s u) :
    Paired t emptied tree changes (t.processFile path s)
      (t.plain.processFile path u) := by
  obtain ⟨r, hr⟩ := t.asks_entrance path s.tree s.memo
  have hentrance := hr s (.refl _) rfl
  have hboth := unmoved_entrance huntouched s u h
  rw [hentrance] at hboth
  generalize hu : t.entrance path u = result at hboth
  cases hboth with
  | @ok _ _ u₁ h₁ =>
      have hplain : t.plain.entrance path u = .ok r.answer u₁ := hu
      cases hanswer : r.answer with
      | error reason =>
          rw [hanswer] at hentrance hplain
          rw [processFile_of_closed hentrance, processFile_of_closed hplain]
          have hskipped : Abreast t.preview emptied tree (changes ++ [])
              (s.hearing r) u₁ := by
            rwa [List.append_nil]
          exact .ok hskipped rfl
      | ok format =>
          rw [hanswer] at hentrance hplain
          rw [processFile_of_open hentrance, processFile_of_open hplain]
          obtain ⟨⟨l, c, hnames⟩, -, found, hfound, rfl⟩ :=
            open_of_entrance hplain
          replace hnames : tree.NamesFile (t.root.join path) l c :=
            h.kept ▸ hnames
          -- the path names the same file in the tree with the save file
          obtain ⟨hnul, hne, hshort, harrives⟩ :=
            Tree.locate_eq_ok_iff.1 hnames.located
          have hgrown := huntouched.beside.grown
          have hlocate : emptied.locate .itself (t.root.join path) = .ok l :=
            Tree.locate_eq_ok_iff.2
              ⟨hnul, hne, hshort,
                hgrown.here ▸ harrives.grow hgrown.kept (by simp)⟩
          have hnames' : s.tree.NamesFile (t.root.join path) l c :=
            ⟨h.alike.locate_eq .itself _ ▸ hlocate,
              (h.elsewhere l (huntouched.unnamed l hlocate)).trans hnames.file⟩
          exact paired_judge hcheck hready h₁ hfound (hnames'.textAt_eq hnames
            (h.alike.unreadable.symm.trans huntouched.beside.unreadable.symm))

/-- The two checks between files: what was previewed are the changes to the
files that were found at fault. -/
def Settled (t : Task) (emptied tree : Tree) (s u : Session) : Prop :=
  ∃ changes, Abreast t.preview emptied tree changes s u
    ∧ t.changesOf tree s.reports = changes.map some

/-- A check with a preview goes through its paths as the plain one does. -/
private theorem both_processAll_plain (hcheck : t.check = true)
    (hready : t.preview.Ready emptied)
    (huntouched : ∀ path ∈ paths, t.selection.Untouched path t.preview
      emptied tree) (h : Settled t emptied tree s u) :
    Both (Settled t emptied tree) (t.processAll paths s)
      (t.plain.processAll paths u) := by
  induction paths generalizing s u with
  | nil => exact .ok h
  | cons path paths ih =>
      obtain ⟨hpath, hpaths⟩ := List.forall_mem_cons.1 huntouched
      obtain ⟨changes, habreast, hchanges⟩ := h
      have hkeeps := t.keepsReports_processFile path s
      have hpaired := paired_processFile hcheck hready hpath habreast
      generalize hs : t.processFile path s = result at hpaired hkeeps
      generalize hu : t.plain.processFile path u = result' at hpaired
      cases hpaired with
      | error h₁ =>
          rw [processAll_of_error hs, processAll_of_error hu]
          exact .error ⟨changes, h₁,
            (congrArg (t.changesOf tree) hkeeps).trans hchanges⟩
      | @ok report s₁ u₁ more h₁ hmore =>
          have hnoted : Settled t emptied tree (s₁.noting report)
              (u₁.noting report) := by
            refine ⟨changes ++ more, h₁.noting report, ?_⟩
            have hreports : s₁.reports = s.reports := hkeeps
            rw [Session.noting, hreports, changesOf_append, hchanges, hmore,
              List.map_append]
          rw [processAll_of_ok hs, processAll_of_ok hu]
          have hrest := ih hpaths hnoted
          generalize t.processAll paths (s₁.noting report) = rest at hrest
          generalize t.plain.processAll paths (u₁.noting report)
            = rest' at hrest
          cases hrest with
          | ok h₂ => exact .ok h₂
          | error h₂ => exact .error h₂

end Task

-- ================================================================ begin

/-- A file that can be opened lies at a location that may be written, where at
most a file stands. -/
theorem Tree.locate_of_openFile {t : Tree} {file : Path} {l : Location}
    {c : Bytes} (h : t.openFile file = .ok (l, c)) :
    t.locate .place file = .ok l
      ∧ l ∉ t.unwritable
      ∧ ∀ e, t.entry? l = some e → ∃ b, e = .file b := by
  cases hl : t.locate .place file with
  | error fault => simp [openFile, hl, bind, Except.bind] at h
  | ok m =>
      simp only [openFile, hl, bind, Except.bind] at h
      split at h
      · cases h
      · rename_i hentry
        split at h
        · cases h
        · rename_i hopen
          cases h
          exact ⟨rfl, by simpa using hopen,
            fun e he => ⟨_, Option.some.inj (he.symm.trans hentry)⟩⟩
      · rename_i hentry
        split at h
        · cases h
        · rename_i hopen
          cases h
          exact ⟨rfl, by simpa using hopen, fun e he => by simp [hentry] at he⟩
      · cases h

/-- A file that was opened and written is where its path leads to. -/
private theorem Tree.target_of_openFile {t : Tree} {file : Path} {l : Location}
    {c : Bytes} (h : t.openFile file = .ok (l, c)) (d : Bytes) :
    l ≠ []
      ∧ Grown t (t.set l (.file d))
      ∧ (t.set l (.file d)).locate .target file = .ok l := by
  obtain ⟨hplace, -, hold⟩ := locate_of_openFile h
  have hne : l ≠ [] := by
    rintro rfl
    obtain ⟨b, hb⟩ := hold .directory rfl
    cases hb
  have hgrown : Grown t (t.set l (.file d)) := .set hold hne d
  obtain ⟨hnul, hnonempty, hshort, harrives⟩ := locate_eq_ok_iff.1 hplace
  exact ⟨hne, hgrown, locate_eq_ok_iff.2
    ⟨hnul, hnonempty, hshort,
      harrives.made hgrown.kept (entry?_set_self t _ hne)⟩⟩

/-- When the save file was emptied the two checks begin abreast. -/
private theorem Preview.begin_of_ok {s₀ : Session}
    (h : p.begin { tree } = .ok () s₀) :
    Beside tree s₀.tree (p.SavesAt s₀.tree)
      ∧ p.Ready s₀.tree
      ∧ Abreast p s₀.tree tree [] s₀ { tree } := by
  cases hfile : p.saved with
  -- no save file: nothing is written
  | none =>
      simp only [begin, hfile] at h
      cases h
      have hno (l : Location) : ¬p.SavesAt tree l := fun ⟨file, hsome, _⟩ => by
        rw [hfile] at hsome
        cases hsome
      refine ⟨⟨.refl _, rfl, fun _ _ => rfl⟩, by simp [Ready, hfile], ?_⟩
      exact ⟨rfl, .refl _, fun _ _ => rfl, fun l hl =>
        absurd hl (hno l), by simp, rfl, rfl, rfl⟩
  | some file =>
      simp only [begin, hfile] at h
      cases hopen : tree.openFile file with
      -- a save file that cannot be opened ends the run here
      | error fault =>
          have happly : (Write.replace file []).apply tree = .error fault := by
            rw [Write.apply_eq]
            simp only [Write.path, hopen, bind, Except.bind]
          rw [Job.change_of_error happly] at h
          cases h
      | ok found =>
          obtain ⟨l, old⟩ := found
          have happly : (Write.replace file []).apply tree
              = .ok (tree.set l (.file [])) := by
            rw [Write.apply_eq]
            simp only [Write.path, hopen, bind, Except.bind, Write.result]
          rw [Job.change_of_ok happly] at h
          cases h
          obtain ⟨-, hwritable, -⟩ := Tree.locate_of_openFile hopen
          obtain ⟨hne, hgrown, htarget⟩ := Tree.target_of_openFile hopen []
          -- there is one save file, so there is one place that it can be at
          have hat {other : Path} (hother : p.saved = some other) :
              file = other :=
            Option.some.inj (hfile.symm.trans hother)
          have hsaves : p.SavesAt (tree.set l (.file [])) l :=
            ⟨file, hfile, htarget⟩
          have helsewhere : ∀ m, ¬p.SavesAt (tree.set l (.file [])) m →
              Tree.entry? (tree.set l (.file [])) m = tree.entry? m :=
              fun m hm =>
            Tree.entry?_set_of_ne tree _ fun heq => hm (heq ▸ hsaves)
          refine ⟨⟨hgrown, rfl, helsewhere⟩,
            fun other hother => ⟨l, hat hother ▸ htarget, hwritable⟩, ?_⟩
          refine ⟨rfl, .refl _, helsewhere, ?_, by simp, rfl, rfl, rfl⟩
          rintro m ⟨other, hother, hm⟩
          obtain rfl := hat hother
          obtain rfl : l = m := Except.ok.inj (htarget.symm.trans hm)
          exact Tree.entry?_set_self tree _ hne

-- ======================================================= standard error

namespace Voice

variable {v : Voice}

/-- What a voice prints on standard error comes event by event. -/
theorem allStderr_cons (e : Event) (events : List Event) :
    v.allStderr (e :: events) = v.stderr e ++ v.allStderr events := by
  rw [allStderr, List.map_cons, String.join_cons]
  rfl

/-- A voice that prints nothing else prints the previews. -/
private theorem allStderr_filter {events : List Event}
    (h : v.allStderr (events.filter (!·.isPreview)) = "") :
    v.allStderr (events.filter Event.isPreview) = v.allStderr events := by
  induction events with
  | nil => rfl
  | cons e events ih =>
      cases he : e.isPreview with
      | true =>
          rw [List.filter_cons_of_neg (by simp [he])] at h
          rw [List.filter_cons_of_pos he, allStderr_cons, allStderr_cons, ih h]
      | false =>
          rw [List.filter_cons_of_pos (by simp [he]), allStderr_cons,
            String.append_eq_empty_iff] at h
          rw [List.filter_cons_of_neg (by simp [he]), ih h.2,
            allStderr_cons, h.1, String.empty_append]

/-- Previews are printed as they are. -/
private theorem allStderr_previews (changes : List Text) :
    v.allStderr (changes.map Event.preview)
      = String.ofList changes.flatten := by
  induction changes with
  | nil => rfl
  | cons new changes ih =>
      rw [List.map_cons, allStderr_cons, ih, List.flatten_cons,
        String.ofList_append]
      rfl

end Voice

-- =============================================================== result

/-- The check with a preview and the one without go on side by side if no path
names the save file and if emptying it puts no marker above a path. -/
theorem both_processFiles_plain {t : Task} {paths : List Path} {s₀ : Session}
    (hcheck : t.check = true) (hbegin : t.preview.begin { tree } = .ok () s₀)
    (hother : ∀ file, t.preview.saved = some file →
      ∀ path ∈ paths, s₀.tree.locate .itself (t.root.join path)
        ≠ s₀.tree.locate .target file)
    (hmarker : ∀ path ∈ paths, ∀ dir ∈ path.enclosing,
      t.selection.optOut.holds s₀.tree dir = true →
      t.selection.optOut.holds tree dir = true) :
    t.preview.Ready s₀.tree
      ∧ Both (Task.Settled t s₀.tree tree) (t.processFiles paths s₀)
        (t.plain.processFiles paths { tree }) := by
  obtain ⟨hbeside, hready, hstart⟩ := Preview.begin_of_ok hbegin
  refine ⟨hready, ?_⟩
  have huntouched : ∀ path ∈ paths, t.selection.Untouched path t.preview
      s₀.tree tree := by
    refine fun path hpath => ⟨hbeside, ?_, hmarker path hpath⟩
    -- no path of the run leads to the save file
    rintro l hl ⟨file, hfile, htarget⟩
    exact hother file hfile path hpath (hl.trans htarget.symm)
  have hreports : t.changesOf tree s₀.reports = ([] : List Text).map some :=
    congrArg (t.changesOf tree) hstart.reports
  have hall := Task.both_processAll_plain hcheck hready huntouched
    ⟨[], hstart, hreports⟩
  generalize hs : t.processAll paths s₀ = result at hall
  generalize hu : t.plain.processAll paths { tree } = result' at hall
  cases hall with
  | ok h =>
      obtain ⟨changes, h, hchanges⟩ := h
      rw [Task.processFiles_of_ok hs, Task.processFiles_of_ok hu]
      exact .ok ⟨changes, h.saying (by simp [Event.isPreview]), hchanges⟩
  | error h =>
      rw [Task.processFiles_of_error hs, Task.processFiles_of_error hu]
      exact .error h

/-- A check that comes to its end has saved the changes to the files with which
it finds fault, one behind the other and in order, and nothing else, whatever
the save file held before. The same is shown on standard error, if it is to be
shown. The result, the reports and all else that is said are those of the check
without a preview. For this no path may name the save file, and emptying the
save file may put no marker in a directory above a path. -/
theorem preview_saves_changes (t : Task) (tree : Tree) (paths : List Path)
    {s₀ s : Session} {failed : Bool} (hcheck : t.check = true)
    (hbegin : t.preview.begin { tree } = .ok () s₀)
    (hrun : t.processFiles paths s₀ = .ok failed s)
    (hother : ∀ file, t.preview.saved = some file →
      ∀ path ∈ paths, s₀.tree.locate .itself (t.root.join path)
        ≠ s₀.tree.locate .target file)
    (hmarker : ∀ path ∈ paths, ∀ dir ∈ path.enclosing,
      t.selection.optOut.holds s₀.tree dir = true →
      t.selection.optOut.holds tree dir = true) :
    ∃ changes : List Text, ∃ u : Session,
      t.changesOf tree s.reports = changes.map some
      ∧ (∀ file, t.preview.saved = some file →
        ∃ l, s.tree.locate .target file = .ok l
          ∧ s.tree.entry? l = some (.file (Utf8.encode changes.flatten)))
      ∧ s.events.filter Event.isPreview
        = (if t.preview.shown then changes.map Event.preview else [])
      ∧ (∀ v : Voice, v.allStderr u.events = "" →
        v.allStderr s.events
          = if t.preview.shown then String.ofList changes.flatten else "")
      ∧ t.plain.processFiles paths { tree } = .ok failed u
      ∧ u.reports = s.reports
      ∧ u.events = s.events.filter (!·.isPreview) := by
  obtain ⟨hready, hboth⟩ :=
    both_processFiles_plain hcheck hbegin hother hmarker
  rw [hrun] at hboth
  generalize hplain : t.plain.processFiles paths { tree } = result at hboth
  cases hboth with
  | @ok _ _ u h =>
      obtain ⟨changes, h, hchanges⟩ := h
      refine ⟨changes, u, hchanges, fun file hfile => ?_, h.shown,
        fun v hv => ?_, rfl, h.reports.symm, h.said.symm⟩
      · obtain ⟨l, hl, -⟩ := hready file hfile
        exact ⟨l, h.alike.locate_eq .target file ▸ hl,
          h.saved l ⟨file, hfile, hl⟩⟩
      · -- without a preview nothing is printed, so what is printed is the
        -- preview
        rw [← Voice.allStderr_filter (h.said ▸ hv), h.shown]
        split
        · exact Voice.allStderr_previews changes
        · rfl

/-- A preview stops no check: once the save file was emptied, changes can be
saved. -/
private theorem processFiles_ok_iff_plain {t : Task} {paths : List Path}
    {s₀ : Session} {failed : Bool} (hcheck : t.check = true)
    (hbegin : t.preview.begin { tree } = .ok () s₀)
    (hother : ∀ file, t.preview.saved = some file →
      ∀ path ∈ paths, s₀.tree.locate .itself (t.root.join path)
        ≠ s₀.tree.locate .target file)
    (hmarker : ∀ path ∈ paths, ∀ dir ∈ path.enclosing,
      t.selection.optOut.holds s₀.tree dir = true →
      t.selection.optOut.holds tree dir = true) :
    (∃ s, t.processFiles paths s₀ = .ok failed s)
      ↔ ∃ u, t.plain.processFiles paths { tree } = .ok failed u := by
  obtain ⟨-, hboth⟩ := both_processFiles_plain hcheck hbegin hother hmarker
  generalize t.processFiles paths s₀ = result at hboth
  generalize t.plain.processFiles paths { tree } = result' at hboth
  cases hboth <;> simp

/-- Paths to other places do not name the save file. -/
theorem unnamed_of_places {t : Task} {paths : List Path} {file : Path}
    {l : Location} {places : List Location}
    (hfile : t.preview.saved = some file)
    (hl : tree.locate .target file = .ok l)
    (hplaces : paths.map (fun path => tree.locate .itself (t.root.join path))
      = places.map .ok) (hne : l ∉ places) :
    ∀ file, t.preview.saved = some file →
      ∀ path ∈ paths, tree.locate .itself (t.root.join path)
        ≠ tree.locate .target file := by
  intro other hother path hpath heq
  obtain rfl : file = other := Option.some.inj (hfile.symm.trans hother)
  have hmem := List.mem_map_of_mem
    (f := fun path => tree.locate .itself (t.root.join path)) hpath
  rw [hplaces, heq, hl] at hmem
  obtain ⟨m, hm, hml⟩ := List.mem_map.1 hmem
  exact hne (Except.ok.inj hml ▸ hm)

/-- The check of the repository with a preview that is shown and saved. -/
def previewTask (file : Path) : Task :=
  { checkoutTask with preview := { shown := true, saved := some file } }

/-- The two files of the repository. -/
def checkoutFiles : List Path := ["a.rs", "b.rs"].map Path.ofString

/-- The repository with an empty save file. -/
def emptiedCheckout (file : Path) : Session :=
  { tree := checkout.set [Repository.name "r", file.bytes] (.file [])
    writes := [.replace file []] }

/-- Without a preview the check finds the first file at fault. -/
theorem processFiles_plain_checkout (file : Path) :
    ∃ u, (previewTask file).plain.processFiles checkoutFiles
          { tree := checkout }
        = .ok true u
      ∧ u.reports
        = [{ path := Path.ofString "a.rs", status := .missing },
          { path := Path.ofString "b.rs", status := .compliant }] := by
  have hend : (Job.answer? ((previewTask file).plain.processFiles checkoutFiles
          { tree := checkout }),
        (Job.left ((previewTask file).plain.processFiles checkoutFiles
          { tree := checkout })).reports)
      = (some true, [{ path := Path.ofString "a.rs", status := .missing },
          { path := Path.ofString "b.rs", status := .compliant }]) := by cbv
  obtain ⟨hanswer, hreports⟩ := Prod.mk.inj hend
  obtain ⟨u, hu⟩ := Job.of_answer? hanswer
  rw [hu] at hreports
  exact ⟨u, hu, hreports⟩

theorem preview_saves_changes_of_checkout :
    let t := previewTask (Path.ofString "diff")
    let changes :=
      Diff.render (Path.ofString "a.rs") "fn a() \x7b\x7d\n".toList
      "// Copyright (c) A\n\nfn a() \x7b\x7d\n".toList
    ∃ s₀ s, t.preview.begin { tree := checkout } = .ok () s₀
      ∧ t.processFiles checkoutFiles s₀ = .ok true s
      ∧ (∃ l, s.tree.locate .target (Path.ofString "diff") = .ok l
        ∧ s.tree.entry? l = some (.file (Utf8.encode changes)))
      ∧ s.events.filter Event.isPreview = [.preview changes] := by
  intro t changes
  let s₀ := emptiedCheckout (Path.ofString "diff")
  have hbegin : t.preview.begin { tree := checkout } = .ok () s₀ := by cbv
  have htarget : s₀.tree.locate .target (Path.ofString "diff")
      = .ok [Repository.name "r", Repository.name "diff"] := by cbv
  have hplaces : checkoutFiles.map (fun path =>
    s₀.tree.locate .itself (t.root.join path))
      = [[Repository.name "r", Repository.name "a.rs"],
          [Repository.name "r", Repository.name "b.rs"]].map .ok := by cbv
  have hother := unnamed_of_places (t := t) rfl htarget hplaces (by decide)
  have hholds : t.selection.optOut.holds s₀.tree ⟨[]⟩ = false := by cbv
  have henclosing : ∀ path ∈ checkoutFiles, ∀ dir ∈ path.enclosing,
    dir = ⟨[]⟩ := by decide
  have hmarker : ∀ path ∈ checkoutFiles, ∀ dir ∈ path.enclosing,
      t.selection.optOut.holds s₀.tree dir = true →
        t.selection.optOut.holds checkout dir = true := by
    intro path hpath dir hdir hmarked
    rw [henclosing path hpath dir hdir, hholds] at hmarked
    cases hmarked
  obtain ⟨u, hu, hreports⟩ :=
    processFiles_plain_checkout (Path.ofString "diff")
  obtain ⟨s, hs⟩ :=
    (processFiles_ok_iff_plain rfl hbegin hother hmarker).2 ⟨u, hu⟩
  obtain ⟨all, u', hall, hsaved, hshown, -, hu', hsame, -⟩ :=
    preview_saves_changes t checkout checkoutFiles rfl hbegin hs hother hmarker
  obtain rfl : u = u' := by injection hu.symm.trans hu'
  -- the first of the two files is at fault
  have htext : checkout.textAt (t.root.join (Path.ofString "a.rs"))
      = .ok "fn a() \x7b\x7d\n".toList := by cbv
  have hfound : t.resolver (Path.ofString "a.rs")
      = some ⟨"rs".toList, .led "//", false⟩ := by cbv
  have hnew : (Recognizer.ofNotice t.notice (.led "//")).correction?
        ((Recognizer.ofNotice t.notice (.led "//")).regions
        "fn a() \x7b\x7d\n".toList)
      = some "// Copyright (c) A\n\nfn a() \x7b\x7d\n".toList := by cbv
  have hchanges : t.changesOf checkout s.reports = [some changes] := by
    have hat := Task.changesAt_eq hfound htext
    rw [hnew] at hat
    rw [← hsame, hreports]
    exact congrArg (fun new => [new]) hat
  obtain rfl : all = [changes] :=
    List.map_injective_iff.2 (Option.some_injective _)
      (hall.symm.trans hchanges)
  rw [List.flatten_singleton] at hsaved
  exact ⟨s₀, s, hbegin, hs, hsaved _ rfl, hshown⟩

/-- A save file with the name of the marker opts the files beside it out: the
check passes, which it does not without the preview. -/
theorem preview_opts_out :
    let t := previewTask (Path.ofText checkoutTask.marker)
    ∃ s₀ s u, t.preview.begin { tree := checkout } = .ok () s₀
      ∧ (∀ file, t.preview.saved = some file → ∀ path ∈ checkoutFiles,
        s₀.tree.locate .itself (t.root.join path)
        ≠ s₀.tree.locate .target file)
      ∧ t.processFiles checkoutFiles s₀ = .ok false s
      ∧ t.plain.processFiles checkoutFiles { tree := checkout } = .ok true u
      ∧ s.reports ≠ u.reports := by
  intro t
  let s₀ := emptiedCheckout (Path.ofText checkoutTask.marker)
  have hbegin : t.preview.begin { tree := checkout } = .ok () s₀ := by cbv
  have hend : (Job.answer? (t.processFiles checkoutFiles s₀),
        (Job.left (t.processFiles checkoutFiles s₀)).reports.map
        FileReport.status)
      = (some false, [.skipped, .skipped]) := by cbv
  obtain ⟨hanswer, hstatus⟩ := Prod.mk.inj hend
  obtain ⟨s, hs⟩ := Job.of_answer? hanswer
  rw [hs] at hstatus
  change s.reports.map FileReport.status = _ at hstatus
  have htarget : s₀.tree.locate .target (Path.ofText checkoutTask.marker)
      = .ok [Repository.name "r", Repository.name "NO_AUTO_COPYRIGHT"] := by
    cbv
  have hplaces : checkoutFiles.map (fun path =>
    s₀.tree.locate .itself (t.root.join path))
      = [[Repository.name "r", Repository.name "a.rs"],
          [Repository.name "r", Repository.name "b.rs"]].map .ok := by cbv
  obtain ⟨u, hu, hreports⟩ :=
    processFiles_plain_checkout (Path.ofText checkoutTask.marker)
  refine ⟨s₀, s, u, hbegin, unnamed_of_places rfl htarget hplaces (by decide),
    hs, hu, fun heq => ?_⟩
  rw [heq, hreports] at hstatus
  cases hstatus

end CopyrightNotice
