/-
The changes that are shown, and the texts they spell.

A text falls into lines that end at their first line end (`IsLine`), and
the lines make it up again. What is shown is the tidied script line by
line; its kept and deleted lines are those of the old text and its kept
and inserted lines those of the new one, in order
(`preview_spells_both_texts`).
-/
import CopyrightNotice.Diff.Preview
import CopyrightNotice.Proofs.Diff.Readings
import Mathlib.Data.List.Basic

namespace CopyrightNotice.Diff

-- =============================================================== lines

/-- The ways in which a line ends; the last line of a text may lack an
end. -/
def terminators : List Text := [[], ['\n'], ['\r', '\n'], ['\r']]

/-- A line: not empty, with nothing behind its first line end. -/
def IsLine (line : Text) : Prop :=
  line ≠ [] ∧ ∃ body terminator, line = body ++ terminator
    ∧ terminator ∈ terminators
    ∧ ∀ c ∈ body, Text.isLineEnd c = false

/-- A line that has its end. -/
def Terminated (line : Text) : Prop := ['\n'] <:+ line ∨ ['\r'] <:+ line

instance (line : Text) : Decidable (Terminated line) :=
  inferInstanceAs (Decidable (_ ∨ _))

/-- Lines lose nothing of the text. -/
theorem flatten_lines (t : Text) : (lines t).flatten = t := by
  fun_induction lines t with
  | case1 => rfl
  | case2 rest ih => simp [ih]
  | case3 c rest _ hend ih => simp [ih]
  | case4 c rest _ hend hnil ih =>
      rw [hnil] at ih
      simpa using ih
  | case5 c rest _ hend line more hcons ih =>
      rw [hcons] at ih
      simpa using ih

/-- A character in front of a line, which ends none, makes it a longer line. -/
theorem IsLine.cons {c : Char} {line : Text} (hc : Text.isLineEnd c = false)
    (h : IsLine line) : IsLine (c :: line) := by
  obtain ⟨-, body, terminator, rfl, hterminator, hbody⟩ := h
  exact ⟨List.cons_ne_nil _ _, c :: body, terminator, rfl, hterminator,
    List.forall_mem_cons.2 ⟨hc, hbody⟩⟩

/-- What a text is split into are lines. -/
theorem isLine_of_mem_lines {t line : Text} (h : line ∈ lines t) :
    IsLine line := by
  fun_induction lines t generalizing line with
  | case1 => cases h
  | case2 rest ih =>
      rcases List.mem_cons.1 h with rfl | h
      · exact ⟨nofun, [], ['\r', '\n'], rfl, by simp [terminators], nofun⟩
      · exact ih h
  | case3 c rest _ hend ih =>
      rcases List.mem_cons.1 h with rfl | h
      · refine ⟨nofun, [], [c], rfl, ?_, nofun⟩
        rcases hend with rfl | rfl <;> simp [terminators]
      · exact ih h
  | case4 c rest _ hend hnil ih =>
      obtain rfl := List.mem_singleton.1 h
      refine ⟨nofun, [c], [], rfl, by simp [terminators], ?_⟩
      simpa [Text.isLineEnd] using hend
  | case5 c rest _ hend first more hcons ih =>
      rw [hcons] at ih
      rcases List.mem_cons.1 h with rfl | h
      · exact (ih (List.mem_cons_self ..)).cons (by simpa [Text.isLineEnd]
          using hend)
      · exact ih (List.mem_cons_of_mem _ h)

-- ============================================================= changes

/-- A line has its end if its last character ends a line. -/
theorem terminated_iff (line : Text) :
    Terminated line
      ↔ ∃ c, line.getLast? = some c ∧ Text.isLineEnd c = true := by
  rcases List.eq_nil_or_concat' line with rfl | ⟨body, c, rfl⟩
  · simp [Terminated]
  · simp [Terminated, Text.isLineEnd, @eq_comm Char _ c]

/-- A line that has its end is shown as it is behind its sign. -/
private theorem signed_eq (change : Change) (line : Text) :
    signed change line
      = change.sign :: line ++ if Terminated line then [] else ['\n'] := by
  unfold signed
  congr 1
  simp only [terminated_iff]
  cases line.getLast? with
  | none => simp
  | some c => simp

/-- The lines of a script to which certain things happen. -/
theorem map_snd_filter_changes (p : Change → Bool) (s : Script) :
    ((changes s).filter fun c => p c.1).map Prod.snd
      = s.flatMap fun run => if p run.change then run.lines else [] := by
  unfold changes
  rw [List.filter_flatMap, List.map_flatMap]
  refine congrArg (s.flatMap ·) (funext fun run => ?_)
  by_cases h : p run.change = true <;> simp [List.filter_map,
    Function.comp_def, h]

/-- The lines with these signs are the lines of the old text. -/
private theorem map_snd_filter_old (s : Script) :
    ((changes s).filter fun c => c.1.sign = ' ' ∨ c.1.sign = '-').map Prod.snd
      = s.old := by
  rw [map_snd_filter_changes fun c => c.sign = ' ' ∨ c.sign = '-']
  refine congrArg (s.flatMap ·) (funext fun run => ?_)
  cases h : run.change <;> simp [Run.old, h, Change.sign]

/-- Lines that are kept or added make up the new text. -/
private theorem map_snd_filter_new (s : Script) :
    ((changes s).filter fun c => c.1.sign = ' ' ∨ c.1.sign = '+').map Prod.snd
      = s.new := by
  rw [map_snd_filter_changes fun c => c.sign = ' ' ∨ c.sign = '+']
  refine congrArg (s.flatMap ·) (funext fun run => ?_)
  cases h : run.change <;> simp [Run.new, h, Change.sign]

/-- A line of a script is a line of one of its readings. -/
private theorem mem_old_or_mem_new {s : Script} {c : Change × Text}
    (h : c ∈ changes s) : c.2 ∈ s.old ∨ c.2 ∈ s.new := by
  obtain ⟨run, hrun, hline⟩ := List.mem_flatMap.1 h
  obtain ⟨line, hline, rfl⟩ := List.mem_map.1 hline
  by_cases hinsert : run.change = .insert
  · right
    exact List.mem_flatMap.2 ⟨run,
      hrun, by simpa [Run.new, hinsert] using hline⟩
  · left
    exact List.mem_flatMap.2 ⟨run,
      hrun, by simpa [Run.old, hinsert] using hline⟩

/-- The script between two texts has their lines. -/
private theorem readings_between (old new : Text) :
    (between old new).old = lines old ∧ (between old new).new = lines new := by
  have hcompact := same_compact (search (lines old) (lines new))
  have hsearch := readings_search (lines old) (lines new)
  exact ⟨hcompact.old.trans hsearch.1, hcompact.new.trans hsearch.2⟩

-- ============================================================== result

/-- What is shown of the way from one text to another spells both. The
changes are lines; those kept and deleted are the lines of the old text and
make it up, those kept and inserted the lines of the new one. They stand
behind one line that names the file, each with its sign and with a line
feed of its own if and only if it has no end, and an empty line is last. -/
theorem preview_spells_both_texts (path : Path) (old new : Text) :
    let cs := changes (between old new)
    (∀ c ∈ cs, IsLine c.2)
    ∧ ((cs.filter fun c => c.1.sign = ' ' ∨ c.1.sign = '-').map Prod.snd
        = lines old
      ∧ ((cs.filter fun c => c.1.sign = ' ' ∨ c.1.sign = '-').map
          Prod.snd).flatten = old)
    ∧ ((cs.filter fun c => c.1.sign = ' ' ∨ c.1.sign = '+').map Prod.snd
        = lines new
      ∧ ((cs.filter fun c => c.1.sign = ' ' ∨ c.1.sign = '+').map
          Prod.snd).flatten = new)
    ∧ render path old new
      = "Diff for ".toList ++ Utf8.display path.bytes ++ ":\n".toList
        ++ cs.flatMap (fun c =>
            c.1.sign :: c.2 ++ if Terminated c.2 then [] else ['\n'])
        ++ ['\n'] := by
  intro cs
  obtain ⟨hold, hnew⟩ := readings_between old new
  refine ⟨fun c hc => ?_, ?_, ?_, ?_⟩
  · rcases mem_old_or_mem_new hc with h | h
    · exact isLine_of_mem_lines (hold ▸ h)
    · exact isLine_of_mem_lines (hnew ▸ h)
  · rw [map_snd_filter_old, hold]
    exact ⟨rfl, flatten_lines old⟩
  · rw [map_snd_filter_new, hnew]
    exact ⟨rfl, flatten_lines new⟩
  · have hsigned : (fun c : Change × Text => signed c.1 c.2)
        = fun c => c.1.sign :: c.2 ++ if Terminated c.2 then [] else ['\n'] :=
      funext fun c => signed_eq c.1 c.2
    rw [← hsigned]
    rfl

end CopyrightNotice.Diff
