/-
What single lines say about headers, in the terms that the search's
proofs use.

# Content

No question asked of a line looks at its line end: the lemmas
`isOpener_content` and its kin say so, one for each question.

# Openers

An opener has the notice's first words in it (`infix_of_isOpener`). So
the empty line is none, and no line that is filled with one character:
what may open a header and what starts a notice are never the same line
(`isMarkerLine_of_isOpener`). The other way round, a line is an opener
when a blank and the notice are left once its markers are gone
(`isOpener_of_stripMarkers`), and a marker in front is gone when neither
marker can be read behind it (`stripMarkers_leader_append`,
`stripMarkers_opening_append`).
-/
import CopyrightNotice.Header.Opener
import CopyrightNotice.Proofs.Text.Lines

namespace CopyrightNotice.CommentFormat

open Text (content)

variable (f : CommentFormat)

-- ============================================================= content

/-- Whether a line opens a header depends on its content alone. -/
@[simp] theorem isOpener_content (line : Text) :
    f.isOpener (content line) = f.isOpener line := by
  simp only [isOpener, Text.content_content]

@[simp] theorem isTerminator_content (line : Text) :
    f.isTerminator (content line) = f.isTerminator line := by
  simp only [isTerminator, Text.content_content]

@[simp] theorem isContinuation_content (line : Text) :
    f.isContinuation (content line) = f.isContinuation line := by
  simp only [isContinuation, Text.content_content]

@[simp] theorem isEnd_content (line : Text) :
    f.isEnd (content line) = f.isEnd line := by
  simp only [isEnd, Text.content_content]

theorem isOpener_append_lf (line : Text) :
    f.isOpener (line ++ ['\n']) = f.isOpener line := by
  rw [← isOpener_content, Text.content_append_lf, isOpener_content]

theorem isContinuation_append_lf (line : Text) :
    f.isContinuation (line ++ ['\n']) = f.isContinuation line := by
  rw [← isContinuation_content, Text.content_append_lf, isContinuation_content]

theorem isEnd_append_lf (line : Text) :
    f.isEnd (line ++ ['\n']) = f.isEnd line := by
  rw [← isEnd_content, Text.content_append_lf, isEnd_content]

-- ========================================================= terminators

/-- A line may stand below a header when its content is empty, ends with
the closing marker, or is the marker of an empty line. -/
theorem isTerminator_iff (line : Text) :
    f.isTerminator line = true ↔
      content line = [] ∨ f.closing <:+ content line
        ∨ content line = f.blankMarker := by
  have hself : content line = f.closing → f.closing <:+ content line :=
    fun h => h ▸ List.suffix_rfl
  simp only [isTerminator, Bool.or_eq_true, List.isEmpty_iff, beq_iff_eq,
    List.isSuffixOf_iff_suffix]
  constructor
  · rintro (((h | h) | h) | h)
    · exact Or.inl h
    · exact Or.inr (Or.inl (hself h))
    · exact Or.inr (Or.inl h)
    · exact Or.inr (Or.inr h)
  · rintro (h | h | h)
    · exact Or.inl (Or.inl (Or.inl h))
    · exact Or.inl (Or.inr h)
    · exact Or.inr h

-- ============================================================= markers

theorem leads_append {marker : Text} (h : marker ≠ []) (t : Text) :
    leads marker (marker ++ t) = true := by
  rw [leads, Bool.and_eq_true]
  exact ⟨by simpa using h,
    List.isPrefixOf_iff_prefix.2 (List.prefix_append _ _)⟩

/-- A marker that does not begin with a blank leads nothing that does. -/
theorem leads_blank {marker : Text} (h : marker.head? ≠ some ' ') (t : Text) :
    leads marker (' ' :: t) = false := by
  cases marker with
  | nil => rfl
  | cons c marker =>
      have hc : c ≠ ' ' := fun hc => h (by rw [hc]; rfl)
      simp [leads, List.isPrefixOf, hc]

theorem leads_nil (marker : Text) : leads marker [] = false := by
  cases marker <;> rfl

/-- An empty line carries no comment on. -/
theorem isContinuation_of_content_eq_nil {line : Text}
    (h : content line = []) : f.isContinuation line = false := by
  rw [isContinuation, h, leads_nil, leads_nil]
  rfl

/-- The leader is tried first, then the opening marker. -/
theorem stripMarker?_eq (t : Text) :
    f.stripMarker? t =
      if leads f.leader t then some (t.drop f.leader.length)
      else if leads f.opening t then some (t.drop f.opening.length)
      else none := rfl

/-- To strip all markers is to strip one and then the rest. -/
theorem stripMarkers_of_stripMarker? {t rest : Text}
    (h : f.stripMarker? t = some rest) :
    f.stripMarkers t = f.stripMarkers rest := by
  rw [stripMarkers]
  split
  · rename_i hsome
    rw [h] at hsome
    rw [Option.some.inj hsome]
  · rename_i hnone
    rw [h] at hnone
    cases hnone

theorem stripMarkers_eq_self {t : Text} (hleader : leads f.leader t = false)
    (hopening : leads f.opening t = false) : f.stripMarkers t = t := by
  have hnone : f.stripMarker? t = none := by
    simp [stripMarker?_eq, hleader, hopening]
  rw [stripMarkers]
  split
  · rename_i hsome
    rw [hnone] at hsome
    cases hsome
  · rfl

/-- One leader before a text without markers is stripped, and nothing else. -/
theorem stripMarkers_leader_append {t : Text}
    (hleader : leads f.leader t = false)
    (hopening : leads f.opening t = false) :
    f.stripMarkers (f.leader ++ t) = t := by
  by_cases hnil : f.leader = []
  · rw [hnil]
    exact f.stripMarkers_eq_self hleader hopening
  · have hstrip : f.stripMarker? (f.leader ++ t) = some t := by
      simp [stripMarker?_eq, leads_append hnil]
    rw [f.stripMarkers_of_stripMarker? hstrip]
    exact f.stripMarkers_eq_self hleader hopening

/-- One opening marker is stripped too, and nothing else. -/
theorem stripMarkers_opening_append (hwrapped : f.isWrapped = true) {t : Text}
    (hopening : leads f.opening t = false) :
    f.stripMarkers (f.opening ++ t) = t := by
  have hleader : ∀ t : Text, leads f.leader t = false := by
    intro t
    rw [List.isEmpty_iff.1 hwrapped]
    rfl
  by_cases hnil : f.opening = []
  · rw [hnil]
    exact f.stripMarkers_eq_self (hleader t) hopening
  · have hstrip : f.stripMarker? (f.opening ++ t) = some t := by
      simp [stripMarker?_eq, hleader, leads_append hnil]
    rw [f.stripMarkers_of_stripMarker? hstrip]
    exact f.stripMarkers_eq_self (hleader t) hopening

/-- What is stripped is taken from the front. -/
theorem stripMarkers_suffix (t : Text) : f.stripMarkers t <:+ t := by
  rw [stripMarkers]
  split
  · rename_i rest hsome
    have hlt := f.length_lt_of_stripMarker? hsome
    have hrest : rest <:+ t := by
      rw [stripMarker?_eq] at hsome
      split at hsome
      · cases hsome
        exact List.drop_suffix _ _
      · split at hsome
        · cases hsome
          exact List.drop_suffix _ _
        · cases hsome
    exact (stripMarkers_suffix rest).trans hrest
  · exact List.suffix_rfl
termination_by t.length

-- ============================================================= openers

/-- Behind the markers stands one blank and then the notice. -/
theorem isOpener_of_stripMarkers {line rest : Text}
    (h : f.stripMarkers (content line) = ' ' :: rest)
    (hrest : noticeOpener <+: rest) : f.isOpener line = true := by
  have hblank : f.isMarkerChar ' ' = false := by
    simp [isMarkerChar, show Text.isBlank ' ' = true from rfl]
  simp only [isOpener, h, List.dropWhile_cons, hblank]
  exact List.isPrefixOf_iff_prefix.2 hrest

/-- A line that opens a header contains the opener's words. -/
theorem infix_of_isOpener {line : Text} (h : f.isOpener line = true) :
    noticeOpener <:+: content line := by
  unfold isOpener at h
  split at h
  · cases h
  · rename_i c rest hdrop
    have hsuffix : c :: rest <:+ content line := by
      rw [← hdrop]
      exact (List.dropWhile_suffix _).trans (f.stripMarkers_suffix _)
    have hrest : rest <:+ content line :=
      (List.suffix_cons c rest).trans hsuffix
    exact (List.isPrefixOf_iff_prefix.1 h).isInfix.trans hrest.isInfix

@[simp] theorem isOpener_nil : f.isOpener [] = false := by
  by_contra h
  have := f.infix_of_isOpener (Bool.not_eq_false _ ▸ h)
  rw [Text.content_nil, List.infix_nil] at this
  cases this

/-- A line filled with one character is no opener, so what looks like an
opening line is the opening line itself or no opener. -/
theorem isMarkerLine_of_isOpener {opening line : Text}
    (h : f.isOpener line = true) (hopening : f.isOpener opening = false) :
    isMarkerLine opening (content line) = false := by
  have hwords := (f.infix_of_isOpener h).subset
  have hne : content line ≠ opening := by
    intro heq
    rw [← heq, isOpener_content, h] at hopening
    cases hopening
  -- the notice's first words are not all the same character
  have hmixed : ∀ fill : Char, (content line).all (· == fill) = false := by
    intro fill
    by_contra hall
    have hall : ∀ c ∈ content line, c = fill := by simpa using hall
    have hC := hall 'C' (hwords (by decide))
    have ho := hall 'o' (hwords (by decide))
    rw [← ho] at hC
    cases hC
  cases opening with
  | nil => simp [isMarkerLine, hne]
  | cons fill more => simp [isMarkerLine, hne, hmixed fill]

end CopyrightNotice.CommentFormat
