/-
The components of paths that are put together.

Behind the first path of a join the second one adds its steps and nothing
else (`components_join`): a dot in front of them is void there. So a list of
components that has the shape of a path's own, something to begin with and
steps behind it, is spelled by the path assembled from it
(`components_ofComponents`), and a path without its dots has the components
that are left (`components_withoutDots`).
-/
import CopyrightNotice.Proofs.Path.Steps

namespace CopyrightNotice.Path

variable {p q : Path} {part : Bytes}

-- ================================================================ joins

/-- What a path starts with does not depend on what is joined to it. -/
private theorem leadsWithDot_join (hp : p.bytes ≠ [])
    (hq : q.isAbsolute = false) :
    (p.join q).leadsWithDot = p.leadsWithDot := by
  have hhead {front back : Bytes} : (split front ++ split back).head?
      = (split front).head? := by
    obtain ⟨part, more, hsplit⟩ :=
      List.exists_cons_of_ne_nil (split_ne_nil front)
    rw [hsplit, List.cons_append, List.head?_cons, List.head?_cons]
  rcases join_of_relative hq with ⟨hnil, -⟩ | ⟨front, hfront, hjoin⟩
    | ⟨-, hjoin⟩
  · exact absurd hnil hp
  · rw [hjoin, leadsWithDot, leadsWithDot, hfront, split_append_slash,
      split_append_slash, hhead, hhead]
  · rw [hjoin, leadsWithDot, leadsWithDot, split_append_slash, hhead]

private theorem lead_join (hp : p.bytes ≠ []) (hq : q.isAbsolute = false) :
    (p.join q).lead = p.lead := by
  rw [lead, lead, isAbsolute_join hq, leadsWithDot_join hp hq]

/-- A relative path adds its steps to a path that is not empty. -/
theorem components_join (hp : p.bytes ≠ []) (hq : q.isAbsolute = false) :
    (p.join q).components = p.components ++ q.steps.map ofStep := by
  rw [components_eq, components_eq, lead_join hp hq, steps_join hq,
    List.map_append, List.append_assoc]

-- ============================================================= assembly

/-- A component that is a step of a path, wherever it stands. -/
def IsStep (c : Component) : Prop :=
  ∃ part, slash ∉ part ∧ isVoid part = false ∧ c = ofStep part

theorem isStep_of_mem_map {c : Component} (h : c ∈ p.steps.map ofStep) :
    IsStep c := by
  obtain ⟨part, hpart, rfl⟩ := List.mem_map.1 h
  exact ⟨part, slash_not_mem_of_mem_split (List.mem_filter.1 hpart).1,
    not_isVoid_of_mem_steps hpart, rfl⟩

/-- A component of a step is spelled as that step. -/
private theorem ofComponent_ofStep (part : Bytes) :
    ofComponent (ofStep part) = ⟨part⟩ := by
  unfold ofStep
  split
  · rename_i hup
    rw [hup]
    rfl
  · rfl

theorem isAbsolute_of_no_slash (h : slash ∉ part) :
    isAbsolute ⟨part⟩ = false := by
  cases part with
  | nil => rfl
  | cons b rest =>
      simpa [isAbsolute] using fun hb : b = slash =>
        h (hb ▸ List.mem_cons_self ..)

/-- A part that counts is one component. -/
private theorem components_of_part (hslash : slash ∉ part)
    (hvoid : isVoid part = false) : components ⟨part⟩ = [ofStep part] := by
  have hdot : part ≠ [dot] := fun hpart => by simp [isVoid, hpart] at hvoid
  have hsplit := split_of_no_slash hslash
  simp [components_eq, lead, isAbsolute_of_no_slash hslash, leadsWithDot,
    hsplit, hdot, steps, hvoid]

/-- A step that is taken from a path is its last component. -/
private theorem components_join_step (p : Path) {c : Component}
    (h : IsStep c) :
    (p.join (ofComponent c)).components = p.components ++ [c] := by
  obtain ⟨part, hslash, hvoid, rfl⟩ := h
  have hrel := isAbsolute_of_no_slash hslash
  rw [ofComponent_ofStep]
  by_cases hp : p.bytes = []
  · have hjoin : p.join ⟨part⟩ = ⟨part⟩ := by simp [join, hrel, hp]
    rw [hjoin, components_of_part hslash hvoid, components_eq_nil_iff.2 hp,
      List.nil_append]
  · have hsteps : steps ⟨part⟩ = [part] := by simp [steps,
      split_of_no_slash hslash, hvoid]
    rw [components_join hp hrel, hsteps]
    rfl

/-- To join steps to a path adds them as components. -/
theorem components_foldl_join (p : Path) {cs : List Component}
    (h : ∀ c ∈ cs, IsStep c) :
    (cs.foldl (fun p c => p.join (ofComponent c)) p).components
      = p.components ++ cs := by
  induction cs generalizing p with
  | nil => simp
  | cons c cs ih =>
      obtain ⟨hc, hcs⟩ := List.forall_mem_cons.1 h
      rw [List.foldl_cons, ih _ hcs, components_join_step p hc,
        List.append_assoc, List.singleton_append]

/-- Steps are spelled by the path assembled from them. -/
theorem components_ofComponents {cs : List Component}
    (h : ∀ c ∈ cs, IsStep c) : (ofComponents cs).components = cs :=
  components_foldl_join ⟨[]⟩ h

private theorem components_ofComponents_root {cs : List Component}
    (h : ∀ c ∈ cs, IsStep c) :
    (ofComponents (.root :: cs)).components = .root :: cs :=
  components_foldl_join ⟨[slash]⟩ h

/-- The components of a path without its dots are its beginning, if it is
absolute, and its steps. -/
theorem filter_components (p : Path) : p.components.filter (· != .here)
    = (if p.isAbsolute then [.root] else []) ++ p.steps.map ofStep := by
  have hsteps : (p.steps.map ofStep).filter (· != .here)
      = p.steps.map ofStep := by
    refine List.filter_eq_self.2 fun c hc => ?_
    obtain ⟨part, -, rfl⟩ := List.mem_map.1 hc
    unfold ofStep
    split <;> rfl
  rw [components_eq, List.filter_append, hsteps, lead]
  cases p.isAbsolute <;> cases p.leadsWithDot <;> rfl

/-- Without its dots a path keeps its other components. -/
theorem components_withoutDots (p : Path) :
    (ofComponents (p.components.filter (· != .here))).components
      = p.components.filter (· != .here) := by
  have hstep : ∀ c ∈ p.steps.map ofStep, IsStep c := fun _ => isStep_of_mem_map
  rw [filter_components]
  split
  · exact components_ofComponents_root hstep
  · exact components_ofComponents hstep

end CopyrightNotice.Path
