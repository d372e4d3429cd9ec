/-
The names that a path spells, and what joining paths makes of them.

Splitting a path at its slashes and putting it together again undo each
other, and splitting two paths with a slash between them gives the parts of
the first and those of the second. Dots and repeated slashes are parts as
well, but spelling only; what is left without them are the steps of a path
(`Path.steps`), and joining adds them up (`steps_join`).
-/
import CopyrightNotice.Tree.Walk

namespace CopyrightNotice.Path

-- ============================================================ splitting

/-- There is always a part, be it an empty one. -/
theorem split_ne_nil (bytes : Bytes) : split bytes ≠ [] := by
  cases bytes with
  | nil => simp [split]
  | cons b rest =>
      unfold split
      split
      · simp
      · split <;> simp

/-- A slash separates the parts in front of it from those behind it. -/
theorem split_append_slash (front back : Bytes) :
    split (front ++ slash :: back) = split front ++ split back := by
  induction front with
  | nil => simp [split]
  | cons b front ih =>
      by_cases hb : b = slash
      · simp [split, hb, ih]
      · obtain ⟨part, more, hsplit⟩ :=
          List.exists_cons_of_ne_nil (split_ne_nil front)
        simp [split, hb, ih, hsplit]

/-- The parts have no slash left in them. -/
theorem slash_not_mem_of_mem_split {bytes part : Bytes}
    (h : part ∈ split bytes) : slash ∉ part := by
  induction bytes generalizing part with
  | nil => simp_all [split]
  | cons b rest ih =>
      obtain ⟨first, more, hsplit⟩ :=
        List.exists_cons_of_ne_nil (split_ne_nil rest)
      by_cases hb : b = slash
      · simp only [split, if_pos hb, List.mem_cons] at h
        rcases h with rfl | h
        · simp
        · exact ih h
      · simp only [split, if_neg hb, hsplit, List.mem_cons] at h
        rcases h with rfl | h
        · have hfirst : slash ∉ first := ih (hsplit ▸ List.mem_cons_self ..)
          simp [hfirst, Ne.symm hb]
        · exact ih (hsplit ▸ List.mem_cons_of_mem _ h)

/-- Bytes without a slash are one part. -/
theorem split_of_no_slash {part : Bytes} (h : slash ∉ part) :
    split part = [part] := by
  induction part with
  | nil => rfl
  | cons b part ih =>
      have hb : b ≠ slash := fun heq => h (heq ▸ List.mem_cons_self ..)
      simp [split, hb, ih fun hmem => h (List.mem_cons_of_mem _ hmem)]

theorem unsplit_cons_cons (part next : Bytes) (more : List Bytes) :
    unsplit (part :: next :: more)
      = part ++ slash :: unsplit (next :: more) := by
  simp [unsplit, List.intercalate]

/-- Parts without slashes are found again in the path put together of them. -/
theorem split_unsplit {parts : List Bytes} (hne : parts ≠ [])
    (h : ∀ part ∈ parts, slash ∉ part) : split (unsplit parts) = parts := by
  induction parts with
  | nil => exact absurd rfl hne
  | cons part more ih =>
      have hpart := split_of_no_slash (h part (List.mem_cons_self ..))
      cases more with
      | nil => simpa [unsplit, List.intercalate] using hpart
      | cons next more =>
          rw [unsplit_cons_cons, split_append_slash, hpart,
            ih (by simp) fun q hq => h q (List.mem_cons_of_mem _ hq)]
          rfl

/-- A path is put together of its parts. -/
theorem unsplit_split (bytes : Bytes) : unsplit (split bytes) = bytes := by
  induction bytes with
  | nil => rfl
  | cons b rest ih =>
      obtain ⟨part, more, hsplit⟩ :=
        List.exists_cons_of_ne_nil (split_ne_nil rest)
      rw [hsplit] at ih
      by_cases hb : b = slash
      · simp only [split, if_pos hb, hsplit]
        rw [unsplit_cons_cons, ih, hb]
        rfl
      · simp only [split, if_neg hb, hsplit]
        cases more with
        | nil => simpa [unsplit, List.intercalate] using ih
        | cons next more =>
            rw [unsplit_cons_cons] at ih ⊢
            rw [List.cons_append, ih]

-- ================================================================ steps

/-- The parts of a path that are more than spelling. -/
def steps (p : Path) : List Bytes := (split p.bytes).filter (!isVoid ·)

/-- No step is only spelling. -/
theorem not_isVoid_of_mem_steps {p : Path} {part : Bytes}
    (h : part ∈ p.steps) : isVoid part = false := by
  simpa using (List.mem_filter.1 h).2

/-- A path that does not climb spells no step up. -/
private theorem not_up_of_climbs {p : Path} (h : p.climbs = false) :
    [dot, dot] ∉ split p.bytes := by
  intro hup
  have hmem : Component.up ∈ (split p.bytes).filterMap component? :=
    List.mem_filterMap.2 ⟨_, hup, by decide⟩
  have : Component.up ∈ p.components := by
    unfold components
    split
    · exact List.mem_cons_of_mem _ hmem
    · split
      · exact List.mem_cons_of_mem _ hmem
      · exact hmem
  simp [climbs, this] at h

/-- The component that is in front of the steps of a path. -/
def lead (p : Path) : List Component :=
  if p.isAbsolute then [.root] else if p.leadsWithDot then [.here] else []

/-- A path is absolute if the top leads it. -/
theorem isAbsolute_eq_lead (p : Path) :
    p.isAbsolute = (p.lead == [.root]) := by
  unfold lead
  cases p.isAbsolute
  · cases p.leadsWithDot <;> decide
  · rfl

/-- The component that a step spells. -/
def ofStep (part : Bytes) : Component :=
  if part = [dot, dot] then .up else .name part

/-- The components of a path are what leads it, and its steps. -/
theorem components_eq (p : Path) :
    p.components = p.lead ++ p.steps.map ofStep := by
  have hsteps : (split p.bytes).filterMap component? = p.steps.map ofStep := by
    have hpart : component?
        = fun part => (Option.guard (!isVoid ·) part).map ofStep := by
      funext part
      cases hvoid : isVoid part
      · simp [component?, Option.guard, hvoid, ofStep, apply_ite]
      · simp [component?, Option.guard, hvoid]
    rw [hpart, ← List.map_filterMap, steps, ← List.filterMap_eq_filter]
  rw [components, hsteps, lead]
  split
  · rfl
  · split <;> rfl

/-- The part that a component is spelled with, but for a dot at the
beginning. -/
def part? : Component → Option Bytes
  | .root | .here => none
  | .up => some [dot, dot]
  | .name n => some n

/-- A step can be read back from its component. -/
theorem part?_ofStep (part : Bytes) : part? (ofStep part) = some part := by
  unfold ofStep
  split
  · rename_i hup
    rw [hup]
    rfl
  · rfl

/-- Spellings of one list of components have the same steps. -/
theorem steps_eq_filterMap (p : Path) :
    p.steps = p.components.filterMap part? := by
  have hlead : p.lead.filterMap part? = [] := by
    unfold lead
    split
    · rfl
    · split <;> rfl
  have hsteps : part? ∘ ofStep = some := funext part?_ofStep
  rw [components_eq, List.filterMap_append, hlead, List.filterMap_map, hsteps,
    List.filterMap_some, List.nil_append]

/-- A path is absolute if the top is one of its components. -/
theorem isAbsolute_iff_root_mem (p : Path) :
    p.isAbsolute = true ↔ Component.root ∈ p.components := by
  have hsteps : Component.root ∉ p.steps.map ofStep := by
    intro hmem
    obtain ⟨part, -, hpart⟩ := List.mem_map.1 hmem
    have hroot := part?_ofStep part
    rw [hpart] at hroot
    cases hroot
  rw [components_eq, lead]
  by_cases habs : p.isAbsolute = true
  · simp [habs]
  · by_cases hdot : p.leadsWithDot = true <;> simpa [habs, hdot] using hsteps

/-- A byte of a path stands in one of its parts, or between two of them. -/
private theorem mem_split {bytes : Bytes} {b : UInt8} (hb : b ≠ slash) :
    b ∈ bytes ↔ ∃ part ∈ split bytes, b ∈ part := by
  induction bytes with
  | nil => simp [split]
  | cons first rest ih =>
      obtain ⟨part, more, hsplit⟩ :=
        List.exists_cons_of_ne_nil (split_ne_nil rest)
      rw [List.mem_cons, ih]
      by_cases hfirst : first = slash
      · simp [split, hfirst, hb]
      · simp [split, hfirst, hsplit, or_assoc]

/-- The bytes of a path that are no spelling stand in its steps. -/
theorem mem_steps {p : Path} {b : UInt8} (hslash : b ≠ slash)
    (hdot : b ≠ dot) : b ∈ p.bytes ↔ ∃ part ∈ p.steps, b ∈ part := by
  rw [mem_split hslash]
  refine exists_congr fun part => ?_
  rw [steps, List.mem_filter, and_assoc]
  refine and_congr_right fun _ => (and_iff_right_of_imp fun hmem => ?_).symm
  cases hvoid : isVoid part with
  | false => rfl
  | true =>
      rcases (by simpa [isVoid] using hvoid : part = []
        ∨ part = [dot]) with rfl | rfl
      · cases hmem
      · exact absurd (List.mem_singleton.1 hmem) hdot

/-- Only the empty path has no components. -/
theorem components_eq_nil_iff {p : Path} :
    p.components = [] ↔ p.bytes = [] := by
  obtain ⟨bytes⟩ := p
  cases bytes with
  | nil => decide
  | cons b rest =>
      rw [components_eq]
      by_cases hb : b = slash
      · simp [lead, isAbsolute, hb]
      · -- the first part is a dot, and leads, or it is a step
        obtain ⟨part, more, hsplit⟩ :=
          List.exists_cons_of_ne_nil (split_ne_nil rest)
        by_cases hpart : b :: part = [dot]
        · simp [lead, isAbsolute, hb, leadsWithDot, split, hsplit, hpart]
        · have hvoid : isVoid (b :: part)
            = false := by simpa [isVoid] using hpart
          simp [steps, split, hb, hsplit, hvoid]

-- ================================================================ joins

/-- What stands between the slashes of a path, if anything does. -/
def spelled (p : Path) : List Bytes := (split p.bytes).filter (· != [])

/-- The parts in front of a slash and those behind it are spelled one after the
other. -/
theorem spelled_append_slash (front back : Bytes) :
    spelled ⟨front ++ slash :: back⟩ = spelled ⟨front⟩ ++ spelled ⟨back⟩ := by
  simp only [spelled, split_append_slash, List.filter_append]

/-- A relative path goes behind another one with a slash between them, unless
there is one already or nothing stands in front of it. -/
theorem join_of_relative {p q : Path} (h : q.isAbsolute = false) :
    (p.bytes = [] ∧ p.join q = q)
      ∨ (∃ front, p.bytes = front ++ [slash]
        ∧ p.join q = ⟨front ++ slash :: q.bytes⟩)
      ∨ (p.bytes ≠ [] ∧ p.join q = ⟨p.bytes ++ slash :: q.bytes⟩) := by
  unfold join
  rw [if_neg (by simp [h])]
  by_cases hnil : p.bytes = []
  · exact Or.inl ⟨hnil, by simp [hnil]⟩
  · by_cases hlast : p.bytes.getLast? = some slash
    · obtain ⟨front, hfront⟩ := List.getLast?_eq_some_iff.1 hlast
      refine Or.inr (Or.inl ⟨front, hfront, ?_⟩)
      simp [hfront]
    · refine Or.inr (Or.inr ⟨hnil, ?_⟩)
      simp [hnil, hlast]

/-- Joining puts the parts one behind the other, but for empty ones. -/
theorem filter_split_join {p q : Path} (hq : q.isAbsolute = false)
    {keep : Bytes → Bool} (hkeep : keep [] = false) :
    (split (p.join q).bytes).filter keep
      = (split p.bytes).filter keep ++ (split q.bytes).filter keep := by
  rcases join_of_relative hq with ⟨hnil, hjoin⟩ | ⟨front, hfront, hjoin⟩
    | ⟨-, hjoin⟩
  · rw [hjoin, hnil]
    simp [split, hkeep]
  · rw [hjoin, hfront, split_append_slash, split_append_slash]
    simp [split, hkeep]
  · rw [hjoin, split_append_slash, List.filter_append]

/-- The parts of a joined path are spelled one after the other. -/
theorem spelled_join {p q : Path} (h : q.isAbsolute = false) :
    (p.join q).spelled = p.spelled ++ q.spelled := filter_split_join h rfl

/-- So are its steps. -/
theorem steps_join {p q : Path} (h : q.isAbsolute = false) :
    (p.join q).steps = p.steps ++ q.steps := filter_split_join h rfl

/-- Where a path is taken from does not matter to an absolute one. -/
theorem join_of_absolute (p : Path) {q : Path} (h : q.isAbsolute = true) :
    p.join q = q :=
  if_pos h

/-- A joined path is empty only if both parts are. -/
theorem join_eq_nil_iff {p q : Path} :
    (p.join q).bytes = [] ↔ p.bytes = [] ∧ q.bytes = [] := by
  by_cases habs : q.isAbsolute = true
  · have hne : q.bytes ≠ [] := fun hnil => by simp [isAbsolute, hnil] at habs
    simp [join_of_absolute p habs, hne]
  · rcases join_of_relative (by simpa using habs : q.isAbsolute = false) with
      ⟨hnil, hjoin⟩ | ⟨front, hfront, hjoin⟩ | ⟨hne, hjoin⟩
    · rw [hjoin]
      simp [hnil]
    · simp [hjoin, hfront]
    · simp [hjoin, hne]

/-- A joined path is absolute if the path in front is. -/
theorem isAbsolute_join {p q : Path} (hq : q.isAbsolute = false) :
    (p.join q).isAbsolute = p.isAbsolute := by
  rcases join_of_relative hq with ⟨hnil, hjoin⟩ | ⟨front, hfront, hjoin⟩
    | ⟨hne, hjoin⟩
  · rw [hjoin, hq]
    simp [isAbsolute, hnil]
  · rw [hjoin]
    cases front <;> simp [isAbsolute, hfront]
  · rw [hjoin]
    obtain ⟨b, bytes, hb⟩ := List.exists_cons_of_ne_nil hne
    simp [isAbsolute, hb]

/-- Joining adds no byte but a slash. -/
theorem mem_join {p q : Path} {b : UInt8} (h : b ∈ (p.join q).bytes) :
    b ∈ p.bytes ∨ b ∈ q.bytes ∨ b = slash := by
  unfold join at h
  split at h
  · exact Or.inr (Or.inl h)
  · split at h
    · rcases List.mem_append.1 h with h | h
      · exact Or.inl h
      · exact Or.inr (Or.inl h)
    · rcases List.mem_append.1 h with h | h
      · exact Or.inl h
      · rcases List.mem_cons.1 h with h | h
        · exact Or.inr (Or.inr h)
        · exact Or.inr (Or.inl h)

/-- A joined path ends with the path behind. -/
theorem suffix_join (p q : Path) : q.bytes <:+ (p.join q).bytes := by
  unfold join
  split
  · exact List.suffix_refl _
  · split
    · exact List.suffix_append ..
    · exact ⟨p.bytes ++ [slash], by simp⟩

/-- A joined path is at least as long as both of its parts. -/
theorem length_le_join {p q : Path} (hq : q.isAbsolute = false) :
    p.bytes.length + q.bytes.length ≤ (p.join q).bytes.length := by
  rcases join_of_relative hq with ⟨hnil, hjoin⟩ | ⟨front, hfront, hjoin⟩
    | ⟨-, hjoin⟩
  · rw [hjoin, hnil]
    simp
  · rw [hjoin, hfront]
    simp
    omega
  · rw [hjoin]
    simp

/-- A joined path begins with the path in front. -/
theorem prefix_join (p : Path) {q : Path} (hq : q.isAbsolute = false) :
    p.bytes <+: (p.join q).bytes := by
  rcases join_of_relative hq with ⟨hnil, -⟩ | ⟨front, hfront, hjoin⟩
    | ⟨-, hjoin⟩
  · rw [hnil]
    exact List.nil_prefix
  · rw [hjoin, hfront]
    exact ⟨q.bytes, by simp⟩
  · rw [hjoin]
    exact List.prefix_append ..

end CopyrightNotice.Path

namespace CopyrightNotice.Tree

open CopyrightNotice.Path (spelled)

/-- A walk takes the parts that are spelled, and the slash at the end. -/
theorem parts_eq (p : Path) :
    parts p = p.spelled
        ++ if p.bytes.getLast? = some Path.slash then [[]] else [] := by
  unfold parts spelled
  by_cases h : p.bytes.getLast? = some Path.slash <;> simp [h]

/-- The steps of a path are the parts that are more than spelling. -/
theorem filter_spelled (p : Path) :
    p.spelled.filter (!Path.isVoid ·) = p.steps := by
  rw [Path.spelled, List.filter_filter, Path.steps]
  refine List.filter_congr fun part _ => ?_
  cases part <;> simp [Path.isVoid]

/-- The parts of a walk are the steps of its path, and spelling. -/
theorem filter_parts (p : Path) :
    (parts p).filter (!Path.isVoid ·) = p.steps := by
  rw [parts_eq, List.filter_append, filter_spelled]
  split <;> simp [Path.isVoid]

/-- A path without a step up has none for the walk. -/
theorem up_not_mem_parts {p : Path} (h : p.climbs = false) :
    [Path.dot, Path.dot] ∉ parts p := by
  intro hmem
  have hstep : [Path.dot, Path.dot] ∈ p.steps :=
    filter_parts p ▸ List.mem_filter.2 ⟨hmem, rfl⟩
  exact Path.not_up_of_climbs h (List.mem_filter.1 hstep).1

/-- A relative path that says something has parts for the walk. -/
theorem parts_ne_nil {p : Path} (hrel : p.isAbsolute = false)
    (hne : p.bytes ≠ []) : parts p ≠ [] := by
  obtain ⟨bytes⟩ := p
  obtain ⟨b, rest, rfl⟩ := List.exists_cons_of_ne_nil hne
  obtain ⟨part, more, hsplit⟩ :=
    List.exists_cons_of_ne_nil (Path.split_ne_nil rest)
  have hb : b ≠ Path.slash := by simpa [Path.isAbsolute] using hrel
  rw [parts_eq, Path.spelled, Path.split, if_neg hb, hsplit]
  simp

/-- A walk along a joined path goes along its first path and then along its
second. -/
theorem parts_join {p q : Path} (hq : q.isAbsolute = false)
    (hne : q.bytes ≠ []) : parts (p.join q) = p.spelled ++ parts q := by
  have hlast : (p.join q).bytes.getLast? = q.bytes.getLast? := by
    have hsome := List.getLast?_eq_some_getLast hne
    rcases Path.join_of_relative hq with ⟨-, hjoin⟩ | ⟨front, -, hjoin⟩
      | ⟨-, hjoin⟩
    · rw [hjoin]
    all_goals
      rw [hjoin]
      simp [List.getLast?_cons, hsome]
  rw [parts_eq, parts_eq, hlast, Path.spelled_join hq, List.append_assoc]

end CopyrightNotice.Tree
