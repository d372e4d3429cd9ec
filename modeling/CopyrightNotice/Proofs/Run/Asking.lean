/-
Jobs that only ask. Whether a file is looked into, and in which format, is
found out without touching anything: what such a job answers, remembers and
says depends on what is remembered and on the shape of the tree, and the
rest of the session stays as it is (`Asks`).

Jobs that ask are put together from jobs that ask (`asks_bind`), so the
filters and the look-up of a format, one behind the other, are one of them
(`Task.asks_entrance`). The rest of a file's processing only follows when
the entrance is open, and then the path names a regular file
(`Task.open_of_entrance`).
-/
import CopyrightNotice.Proofs.Tree.Arrival
import CopyrightNotice.Run.Process

namespace CopyrightNotice

open CopyrightNotice.Tree (Alike)

-- =================================================== jobs in sequence

namespace Job

variable {α β : Type} {j : Job α} {k : α → Job β} {s s' : Session}

/-- A job in two parts goes on with its second part where the first one
answers. -/
theorem bind_of_ok {a : α} (h : j s = .ok a s') : (j >>= k) s = k a s' := by
  simp only [bind, EStateM.bind, h]

/-- What a job in two parts answers, its second part answers behind the
first. -/
theorem of_bind_eq_ok {b : β} (h : (j >>= k) s = .ok b s') :
    ∃ a s₁, j s = .ok a s₁ ∧ k a s₁ = .ok b s' := by
  simp only [bind, EStateM.bind] at h
  cases hj : j s with
  | ok a s₁ =>
      rw [hj] at h
      exact ⟨a, s₁, rfl, h⟩
  | error failure s₁ =>
      rw [hj] at h
      cases h

/-- A job in two parts fails as its first part does. -/
theorem bind_of_error {f : Failure} (h : j s = .error f s') :
    (j >>= k) s = .error f s' := by
  simp only [bind, EStateM.bind, h]

/-- The session that a job leaves behind, whether it fails or not. -/
def left : EStateM.Result Failure Session α → Session
  | .ok _ s => s
  | .error _ s => s

/-- What comes of a job: its result, or the failure that stopped it. -/
def outcome : EStateM.Result Failure Session α → Except Failure α
  | .ok a _ => .ok a
  | .error failure _ => .error failure

/-- A job that leaves a part of the session as it is. -/
def Keeps {γ : Type} (part : Session → γ) (j : Job α) : Prop :=
  ∀ s, part (left (j s)) = part s

variable {γ : Type} (part : Session → γ)

theorem keeps_pure (a : α) : Keeps part (pure a) := fun _ => rfl

theorem keeps_modify {f : Session → Session} (h : ∀ s, part (f s) = part s) :
    Keeps part (modify f) := fun s => h s

variable {part}

/-- What two jobs leave as it is, they leave as it is in sequence. -/
theorem keeps_bind (hj : Keeps part j) (hk : ∀ a, Keeps part (k a)) :
    Keeps part (j >>= k) := by
  intro s
  have hs := hj s
  cases h : j s with
  | ok a s₁ =>
      rw [h] at hs
      rw [bind_of_ok h, hk a s₁]
      exact hs
  | error failure s₁ =>
      rw [h] at hs
      rw [bind_of_error h]
      exact hs

/-- So does a list of jobs. -/
theorem keeps_forM {l : List β} {j : β → Job PUnit}
    (h : ∀ b, Keeps part (j b)) : Keeps part (l.forM j) := by
  induction l with
  | nil => exact keeps_pure _ _
  | cons b l ih => exact keeps_bind (h b) fun _ => ih

/-- The part that a job leaves as it is, is what it was when the job
answers. -/
theorem Keeps.of_ok {a : α} (hj : Keeps part j) (h : j s = .ok a s') :
    part s' = part s := by
  have hs := hj s
  rwa [h] at hs

end Job

-- ============================================================== replies

/-- What comes of a question: the answer, what is remembered after it, and
what was said about it. -/
structure Reply (α : Type) where
  answer : α
  memo : OptOut.Memo
  said : List Event

/-- The session after a question. -/
def Session.hearing {α : Type} (s : Session) (r : Reply α) : Session :=
  { s with memo := r.memo, events := s.events ++ r.said }

namespace Job

variable {α β : Type}

/-- A job that only asks: for trees of one shape, and with the same
remembered, it gets one reply, and does nothing else. -/
def Asks (j : Job α) : Prop :=
  ∀ (t : Tree) (memo : OptOut.Memo), ∃ r : Reply α,
    ∀ s : Session, Alike t s.tree → s.memo = memo →
    j s = .ok r.answer (s.hearing r)

/-- To answer without looking is to ask. -/
theorem asks_pure (a : α) : Asks (pure a) := fun _ memo =>
  ⟨⟨a, memo, []⟩, fun s _ hmemo => by
    simp [Session.hearing, pure, EStateM.pure, ← hmemo]⟩

/-- Jobs that only ask are put together to one that only asks: the second part
is asked with what the first one has left in the memory. -/
theorem asks_bind {j : Job α} {k : α → Job β} (hj : Asks j)
    (hk : ∀ a, Asks (k a)) : Asks (j >>= k) := by
  intro t memo
  obtain ⟨r, hr⟩ := hj t memo
  obtain ⟨q, hq⟩ := hk r.answer t r.memo
  refine ⟨⟨q.answer, q.memo, r.said ++ q.said⟩, fun s halike hmemo => ?_⟩
  rw [bind_of_ok (hr s halike hmemo), hq (s.hearing r) halike rfl]
  simp [Session.hearing]

/-- To say something is to ask: it changes what was said and nothing else. -/
theorem asks_say (e : Event) : Asks (say e) := fun _ memo =>
  ⟨⟨(), memo, [e]⟩, fun s _ hmemo => by rw [← hmemo]; rfl⟩

/-- So is to remember an answer. -/
private theorem asks_remember (memo : OptOut.Memo) :
    Asks (modify fun s : Session => { s with memo }) := fun _ _ =>
  ⟨⟨(), memo, []⟩, fun s _ _ => by
    change EStateM.Result.ok () { s with memo } = _
    simp [Session.hearing]⟩

/-- Asking for every item of a list is asking. -/
private theorem asks_forM {l : List β} {j : β → Job PUnit}
    (h : ∀ b, Asks (j b)) : Asks (l.forM j) := by
  induction l with
  | nil => exact asks_pure _
  | cons b l ih => exact asks_bind (h b) fun _ => ih

/-- A job that looks at the tree and at what is remembered before it asks. -/
theorem asks_of_look {j : Tree → OptOut.Memo → Job α}
    (hj : ∀ t memo, Asks (j t memo)) (halike : ∀ t u, Alike t u → j t = j u) :
    Asks (get >>= fun s => j s.tree s.memo) := by
  intro t memo
  obtain ⟨r, hr⟩ := hj t memo t memo
  refine ⟨r, fun s hs hmemo => ?_⟩
  rw [← hr s hs hmemo, halike t s.tree hs, ← hmemo]
  rfl

end Job

-- ============================================================== filters

namespace Selection

variable (sel : Selection) (path : Path)

/-- A path that is skipped is only spoken of. -/
theorem asks_skip (note : String) (reason : Text) :
    (skip path note reason).Asks :=
  Job.asks_bind (Job.asks_say _) fun _ => Job.asks_pure _

/-- What an entry means for its path is found by asking. -/
private theorem asks_askEntry (found : Except Fault Entry) :
    (askEntry path found).Asks := by
  rcases found with fault | (content | target | _)
  · exact asks_skip _ _ _
  · exact Job.asks_pure _
  · exact asks_skip _ _ _
  · exact asks_skip _ _ _

/-- Only the kind of an entry matters. -/
theorem askEntry_congr {found found' : Except Fault Entry}
    (h : found.map Entry.shell = found'.map Entry.shell) :
    askEntry path found = askEntry path found' := by
  rcases found with fault | (_ | _ | _) <;> rcases found' with fault' | (_
    | _ | _) <;>
    simp_all [Except.map, Entry.shell, askEntry]

/-- The filter for the working tree only asks. It looks at what stands at the
path, which is the same in alike trees but for the content. -/
private theorem asks_askWorkingTree : (sel.askWorkingTree path).Asks :=
  Job.asks_of_look
    (j := fun t _ => askEntry path (t.entryAt (sel.optOut.root.join path)))
    (fun _ _ => asks_askEntry _ _)
    fun _ _ h => funext fun _ => askEntry_congr path (h.entryAt_shell _)

/-- An answer about a marker is remembered and spoken of. -/
theorem asks_noteAnswer (answer : OptOut.Answer) : (noteAnswer answer).Asks :=
  Job.asks_bind (Job.asks_remember _) fun _ => Job.asks_forM fun _ =>
    Job.asks_say _

end Selection

-- ============================================================= opt-outs

namespace OptOut

variable {t u : Tree} (o : OptOut) (memo : Memo)

/-- Whether a directory holds the marker is a matter of the tree's shape. -/
theorem holds_eq (h : Alike t u) (dir : Path) :
    o.holds t dir = o.holds u dir :=
  h.leadsTo_eq _

/-- So is the first of some directories that holds it. -/
private theorem firstOf_eq (h : Alike t u) (dirs : List Path) :
    o.firstOf t memo dirs = o.firstOf u memo dirs := by
  induction dirs generalizing memo with
  | nil => rfl
  | cons dir dirs ih =>
      simp only [firstOf, o.holds_eq h, ih]

end OptOut

namespace Selection

variable (sel : Selection) (path : Path)

/-- The look for a marker only asks: what it finds depends on the memory and on
the tree's shape. -/
private theorem asks_optedOutBy : (sel.optedOutBy path).Asks :=
  Job.asks_of_look
    (j := fun t memo => noteAnswer (sel.optOut.ask t memo path)
      >>= fun _ => pure (sel.optOut.ask t memo path).decider)
    (fun _ _ => Job.asks_bind (asks_noteAnswer _) fun _ => Job.asks_pure _)
    fun t u h => funext fun memo => by
      simp only [OptOut.ask, sel.optOut.firstOf_eq memo h]

/-- The filter for opted-out directories only asks. -/
private theorem asks_askOptOut : (sel.askOptOut path).Asks := by
  refine Job.asks_bind (sel.asks_optedOutBy path) fun decider => ?_
  cases decider with
  | none => exact Job.asks_pure _
  | some dir => exact asks_skip _ _ _

/-- Each filter only asks. -/
private theorem asks_ask (filter : Filter) : (sel.ask path filter).Asks := by
  cases filter with
  | workingTree => exact sel.asks_askWorkingTree path
  | optOut => exact sel.asks_askOptOut path

/-- So do filters one behind the other. -/
private theorem asks_askAll (filters : List Filter) :
    (sel.askAll path filters).Asks := by
  induction filters with
  | nil => exact Job.asks_pure _
  | cons filter more ih =>
      refine Job.asks_bind (sel.asks_ask path filter) fun answer => ?_
      cases answer with
      | admitted => exact ih
      | skipped reason => exact Job.asks_pure _

/-- Whether a file is to be looked into is found by asking. -/
private theorem asks_consider : (sel.consider path).Asks :=
  sel.asks_askAll path _

variable {sel path} {s s' : Session}

/-- A path that the filter for the working tree lets through is itself a
regular file. -/
theorem admitted_of_askWorkingTree
    (h : sel.askWorkingTree path s = .ok .admitted s') :
    s' = s ∧ ∃ l c, s.tree.NamesFile (sel.optOut.root.join path) l c := by
  change askEntry path (s.tree.entryAt (sel.optOut.root.join path)) s = _ at h
  cases hfound : s.tree.entryAt (sel.optOut.root.join path) with
  | error fault =>
      rw [hfound] at h
      cases h
  | ok e =>
      rw [hfound] at h
      cases e with
      | link target | directory => cases h
      | file c =>
          cases h
          obtain ⟨l, hl⟩ := Tree.namesFile_of_entryAt hfound
          exact ⟨rfl, l, c, hl⟩

/-- The filter for the working tree lets a regular file through. -/
theorem askWorkingTree_of_file {c : Bytes}
    (h : s.tree.entryAt (sel.optOut.root.join path) = .ok (.file c)) :
    sel.askWorkingTree path s = .ok .admitted s := by
  change askEntry path (s.tree.entryAt (sel.optOut.root.join path)) s = _
  rw [h]
  rfl

/-- The other filter lets through a path that no directory opts out. -/
private theorem askOptOut_of_none
    (h : (sel.optOut.ask s.tree s.memo path).decider = none) :
    ∃ s', sel.askOptOut path s = .ok .admitted s' := by
  let answer := sel.optOut.ask s.tree s.memo path
  obtain ⟨r, hr⟩ := asks_noteAnswer answer s.tree s.memo
  have hnoted := hr s (.refl _) rfl
  have hdecider : sel.optedOutBy path s = .ok none (s.hearing r) := by
    refine (Job.bind_of_ok (j := noteAnswer answer)
        (k := fun _ => pure answer.decider) hnoted).trans ?_
    rw [h]
    rfl
  exact ⟨_, Job.bind_of_ok hdecider⟩

/-- Whoever says something keeps the memory. -/
theorem keepsMemo_say (e : Event) : Job.Keeps Session.memo (Job.say e) :=
  Job.keeps_modify _ fun _ => rfl

/-- Whoever skips a path keeps the memory. -/
theorem keepsMemo_skip (note : String) (reason : Text) :
    Job.Keeps Session.memo (skip path note reason) :=
  Job.keeps_bind (keepsMemo_say _) fun _ => Job.keeps_pure _ _

/-- So does whoever looks at an entry. -/
private theorem keepsMemo_askEntry (found : Except Fault Entry) :
    Job.Keeps Session.memo (askEntry path found) := by
  rcases found with fault | (content | target | _)
  · exact keepsMemo_skip _ _
  · exact Job.keeps_pure _ _
  · exact keepsMemo_skip _ _
  · exact keepsMemo_skip _ _

/-- An answer about a marker is remembered as the answer has it. -/
private theorem memo_of_noteAnswer {answer : OptOut.Answer} {done : Unit}
    (h : noteAnswer answer s = .ok done s') : s'.memo = answer.memo := by
  have hsaid : Job.Keeps Session.memo (answer.probes.forM fun probe =>
      Job.log .trace .optOut
        ("Opt-out marker in '" ++ probe.1.display ++ "': "
        ++ toString probe.2)) :=
    Job.keeps_forM fun _ => keepsMemo_say _
  exact hsaid.of_ok (s := { s with memo := answer.memo }) h

/-- The filter for opted-out directories leaves the memory of its question. -/
private theorem memo_of_askOptOut {answer : Admission}
    (h : sel.askOptOut path s = .ok answer s') :
    s'.memo = (sel.optOut.ask s.tree s.memo path).memo := by
  obtain ⟨decider, s₁, hdecider, hrest⟩ := Job.of_bind_eq_ok h
  obtain ⟨_, s₂, hnoted, hlast⟩ :=
    Job.of_bind_eq_ok (j := noteAnswer _) hdecider
  have hs : s₂ = s₁ := by injection hlast
  rw [← memo_of_noteAnswer (hs ▸ hnoted)]
  cases decider with
  | none =>
      cases hrest
      rfl
  | some dir => exact (keepsMemo_skip _ _).of_ok hrest

/-- A path that it lets through has no directory that opts it out. -/
private theorem decider_of_askOptOut
    (h : sel.askOptOut path s = .ok .admitted s') :
    (sel.optOut.ask s.tree s.memo path).decider = none := by
  obtain ⟨decider, s₁, hdecider, hrest⟩ := Job.of_bind_eq_ok h
  cases decider with
  | some dir => cases hrest
  | none =>
      obtain ⟨_, s₂, -, hlast⟩ :=
        Job.of_bind_eq_ok (j := noteAnswer _) hdecider
      injection hlast

end Selection

-- ============================================================= entrance

namespace Task

variable (t : Task) (path : Path)

/-- The format of a file is found by asking. -/
theorem asks_formatOf : (t.formatOf path).Asks := by
  unfold formatOf
  cases t.resolver path with
  | none => exact Job.asks_bind (Job.asks_say _) fun _ => Job.asks_pure _
  | some found =>
      by_cases hconf : found.configured = true
      · simp only [hconf, if_true]
        exact Job.asks_bind (Job.asks_say _) fun _ => Job.asks_pure _
      · simp only [if_neg hconf]
        exact Job.asks_bind (Job.asks_pure _) fun _ => Job.asks_pure _

/-- The way to a file: the format in which its header is judged, or why it is
skipped. -/
def entrance : Job (Except Text CommentFormat) := do
  match ← t.selection.consider path with
  | .skipped reason => return .error reason
  | .admitted =>
    match ← t.formatOf path with
    | none => return .error "Unrecognized file type".toList
    | some format => return .ok format

/-- All that comes before a file is judged only asks. -/
theorem asks_entrance : (t.entrance path).Asks := by
  refine Job.asks_bind (t.selection.asks_consider path) fun answer => ?_
  cases answer with
  | skipped reason => exact Job.asks_pure _
  | admitted =>
      refine Job.asks_bind (t.asks_formatOf path) fun found => ?_
      cases found with
      | none => exact Job.asks_pure _
      | some format => exact Job.asks_pure _

/-- A file is judged if the entrance is open. -/
theorem processFile_eq : t.processFile path = (do
    match ← t.entrance path with
    | .error reason => return .skipped path reason
    | .ok format => t.judge path format) := by
  funext s
  simp only [processFile, entrance, bind, EStateM.bind]
  rcases t.selection.consider path s with ⟨_ | reason, s'⟩ | ⟨failure, s'⟩
  · simp only [EStateM.bind]
    rcases t.formatOf path s' with ⟨_ | format, s''⟩ | ⟨failure, s''⟩ <;> rfl
  · rfl
  · rfl

variable {t : Task} {path : Path} {s s' : Session}

/-- A file behind a closed entrance is reported as skipped. -/
theorem processFile_of_closed {reason : Text}
    (h : t.entrance path s = .ok (.error reason) s') :
    t.processFile path s = .ok (.skipped path reason) s' := by
  rw [processFile_eq, Job.bind_of_ok h]
  rfl

/-- A file behind an open entrance is judged in the format found. -/
theorem processFile_of_open {format : CommentFormat}
    (h : t.entrance path s = .ok (.ok format) s') :
    t.processFile path s = t.judge path format s' := by
  rw [processFile_eq, Job.bind_of_ok h]

/-- An admitted path names a regular file, and the opt-outs have nothing
against it. -/
private theorem admitted_of_consider
    (h : t.selection.consider path s = .ok .admitted s') :
    (∃ l c, s.tree.NamesFile (t.root.join path) l c)
      ∧ (t.selection.optOut.ask s.tree s.memo path).decider = none := by
  obtain ⟨first, s₁, hfirst, hrest⟩ := Job.of_bind_eq_ok h
  cases first with
  | skipped reason => cases hrest
  | admitted =>
      obtain ⟨rfl, hnames⟩ := Selection.admitted_of_askWorkingTree hfirst
      obtain ⟨second, s₂, hsecond, hlast⟩ := Job.of_bind_eq_ok hrest
      cases second with
      | skipped reason => cases hlast
      | admitted => exact ⟨hnames, Selection.decider_of_askOptOut hsecond⟩

/-- What is remembered after a path was asked about. -/
private theorem memo_of_consider {answer : Admission}
    (h : t.selection.consider path s = .ok answer s') :
    s'.memo = s.memo ∨ (∃ l c, s.tree.NamesFile (t.root.join path) l c)
      ∧ s'.memo = (t.selection.optOut.ask s.tree s.memo path).memo := by
  obtain ⟨first, s₁, hfirst, hrest⟩ := Job.of_bind_eq_ok h
  cases first with
  | skipped reason =>
      cases hrest
      exact Or.inl ((Selection.keepsMemo_askEntry _).of_ok hfirst)
  | admitted =>
      obtain ⟨rfl, hnames⟩ := Selection.admitted_of_askWorkingTree hfirst
      obtain ⟨second, s₂, hsecond, hlast⟩ := Job.of_bind_eq_ok hrest
      refine Or.inr ⟨hnames, ?_⟩
      rw [← Selection.memo_of_askOptOut hsecond]
      cases second with
      | admitted | skipped => cases hlast; rfl

/-- The look for a format keeps the memory. -/
private theorem keepsMemo_formatOf (t : Task) (path : Path) :
    Job.Keeps Session.memo (t.formatOf path) := by
  unfold formatOf
  cases t.resolver path with
  | none =>
      exact Job.keeps_bind (Selection.keepsMemo_say _) fun _ =>
        Job.keeps_pure _ _
  | some found =>
      by_cases hconf : found.configured = true
      · simp only [hconf, if_true]
        exact Job.keeps_bind (Selection.keepsMemo_say _) fun _ =>
          Job.keeps_pure _ _
      · simp only [if_neg hconf]
        exact Job.keeps_bind (Job.keeps_pure _ _) fun _ => Job.keeps_pure _ _

/-- The way to a file is remembered only for files that are there. -/
theorem memo_of_entrance {answer : Except Text CommentFormat}
    (h : t.entrance path s = .ok answer s') :
    s'.memo = s.memo ∨ (∃ l c, s.tree.NamesFile (t.root.join path) l c)
      ∧ s'.memo = (t.selection.optOut.ask s.tree s.memo path).memo := by
  obtain ⟨admission, s₁, hadmission, hrest⟩ := Job.of_bind_eq_ok h
  have hmemo := memo_of_consider hadmission
  cases admission with
  | skipped reason =>
      cases hrest
      exact hmemo
  | admitted =>
      obtain ⟨found, s₂, hfound, hlast⟩ := Job.of_bind_eq_ok hrest
      have hkept := (keepsMemo_formatOf t path).of_ok hfound
      cases found with
      | none | some => cases hlast; rwa [hkept]

/-- The format behind an entrance is the one that the task has for the path. -/
theorem resolver_of_formatOf {format : Option CommentFormat}
    (h : t.formatOf path s = .ok format s') :
    format = (t.resolver path).map FoundFormat.format := by
  unfold formatOf at h
  cases hres : t.resolver path with
  | none =>
      rw [hres] at h
      cases h
      rfl
  | some found =>
      rw [hres] at h
      by_cases hconf : found.configured = true
      · simp only [hconf, if_true] at h
        cases h
        rfl
      · simp only [if_neg hconf] at h
        cases h
        rfl

/-- Behind an open entrance there is a regular file of a known kind that is
in no directory known to be opted out. -/
theorem open_of_entrance {format : CommentFormat}
    (h : t.entrance path s = .ok (.ok format) s') :
    (∃ l c, s.tree.NamesFile (t.root.join path) l c)
      ∧ (t.selection.optOut.ask s.tree s.memo path).decider = none
      ∧ ∃ found, t.resolver path = some found ∧ found.format = format := by
  obtain ⟨answer, s₁, hanswer, hrest⟩ := Job.of_bind_eq_ok h
  cases answer with
  | skipped reason => cases hrest
  | admitted =>
      obtain ⟨hnames, hnone⟩ := admitted_of_consider hanswer
      obtain ⟨found, s₂, hfound, hlast⟩ := Job.of_bind_eq_ok hrest
      cases found with
      | none => cases hlast
      | some format' =>
          cases hlast
          exact ⟨hnames, hnone,
            Option.map_eq_some_iff.1 (resolver_of_formatOf hfound).symm⟩

/-- The entrance is open for a regular file of a known kind that is in no
directory known to be opted out. -/
theorem entrance_of_open {found : FoundFormat} {l : Location} {c : Bytes}
    (hnames : s.tree.NamesFile (t.root.join path) l c)
    (hdecider : (t.selection.optOut.ask s.tree s.memo path).decider = none)
    (hfound : t.resolver path = some found) :
    ∃ r : Reply (Except Text CommentFormat),
      t.entrance path s = .ok (.ok found.format) (s.hearing r) := by
  obtain ⟨s₁, hsecond⟩ := Selection.askOptOut_of_none hdecider
  have hconsider : t.selection.consider path s = .ok .admitted s₁ := by
    refine (Job.bind_of_ok
        (Selection.askWorkingTree_of_file hnames.entryAt_eq)).trans ?_
    exact Job.bind_of_ok hsecond
  obtain ⟨q, hq⟩ := asks_formatOf t path s₁.tree s₁.memo
  have hformat := hq s₁ (.refl _) rfl
  have hfound' := resolver_of_formatOf hformat
  rw [hfound] at hfound'
  rw [hfound'] at hformat
  have hentrance : t.entrance path s = .ok (.ok found.format) (s₁.hearing q) :=
    (Job.bind_of_ok hconsider).trans (Job.bind_of_ok hformat)
  obtain ⟨r, hr⟩ := t.asks_entrance path s.tree s.memo
  have hs := hr s (.refl _) rfl
  have hanswer : r.answer = .ok found.format := by
    injection hs.symm.trans hentrance
  exact ⟨r, hanswer ▸ hs⟩

end Task

end CopyrightNotice
