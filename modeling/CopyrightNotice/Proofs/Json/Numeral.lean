/-
Numbers in a document: what is written for one is read as one.

A numeral is a sign, a whole part, decimal places and an exponent. Each
part has its own reader, which stops in front of the first character that
it cannot use; so a part is read back if what follows starts with no such
character. `Apart` says this of the text behind a whole numeral, and the
parts of a numeral are apart from one another by their first characters.

The main statements: a numeral is read back (`readNumber?_append`), and
whole numbers (`isNumeral_ofInt`) and shortest decimals
(`isNumeral_render`) are numerals.
-/
import Mathlib.Data.List.DropRight
import Mathlib.Data.List.TakeDrop
import CopyrightNotice.Decimal.Shortest
import CopyrightNotice.Json.Reader

namespace CopyrightNotice.Json

-- ============================================================ numerals

/-- Digits, at least one. -/
structure IsDigits (t : Text) : Prop where
  ne_nil : t ≠ []
  isDigit : ∀ c ∈ t, c.isDigit = true

/-- The whole part of a number: a zero in front stands alone. -/
structure IsWhole (t : Text) : Prop extends IsDigits t where
  zero : t.head? = some '0' → t = ['0']

/-- The decimal places, or nothing. -/
inductive IsPlaces : Text → Prop
  | none : IsPlaces []
  | some {t : Text} (h : IsDigits t) : IsPlaces ('.' :: t)

/-- The exponent, or nothing. -/
inductive IsExponent : Text → Prop
  | none : IsExponent []
  | plain {t : Text} (h : IsDigits t) : IsExponent ('e' :: t)
  | minus {t : Text} (h : IsDigits t) : IsExponent ('e' :: '-' :: t)

/-- A number as it is written. -/
inductive IsNumeral : Text → Prop
  | plain {w p e : Text} (hw : IsWhole w) (hp : IsPlaces p)
      (he : IsExponent e) :
    IsNumeral (w ++ (p ++ e))
  | minus {w p e : Text} (hw : IsWhole w) (hp : IsPlaces p)
      (he : IsExponent e) :
    IsNumeral ('-' :: (w ++ (p ++ e)))

/-- Whether a number goes on with the character. -/
def continues (c : Char) : Bool :=
  c.isDigit || c == '.' || c == 'e' || c == 'E'

/-- The text does not go on with a number. -/
def Apart (t : Text) : Prop := ∀ c ∈ t.head?, continues c = false

/-- Digits start with a digit. -/
theorem IsDigits.exists_cons {t : Text} (h : IsDigits t) :
    ∃ d ds, t = d :: ds ∧ d.isDigit = true := by
  rcases t with _ | ⟨d, ds⟩
  · exact absurd rfl h.ne_nil
  · exact ⟨d, ds, rfl, h.isDigit d List.mem_cons_self⟩

/-- Digits are no sign. -/
theorem ne_of_isDigit {c x : Char} (hc : c.isDigit = true)
    (hx : x.isDigit = false) : c ≠ x := by
  rintro rfl
  rw [hc] at hx
  cases hx

/-- No digit stands where a numeral ends. -/
theorem Apart.not_isDigit {t : Text} (h : Apart t) :
    ∀ c ∈ t.head?, c.isDigit = false := by
  intro c hc
  have := h c hc
  simp only [continues, Bool.or_eq_false_iff] at this
  exact this.1.1.1

-- ============================================================= reading

/-- The digits at the start are taken, up to what is none. -/
private theorem takeDigits_append {t rest : Text}
    (ht : ∀ c ∈ t, c.isDigit = true)
    (hr : ∀ c ∈ rest.head?, c.isDigit = false) :
    takeDigits (t ++ rest) = (t, rest) := by
  have hrest : rest.takeWhile Char.isDigit = []
      ∧ rest.dropWhile Char.isDigit = rest := by
    rcases rest with _ | ⟨c, rest⟩
    · exact ⟨rfl, rfl⟩
    · have := hr c rfl
      simp [this]
  rw [takeDigits, List.span_eq_takeWhile_dropWhile,
    List.takeWhile_append_of_pos ht, List.dropWhile_append_of_pos ht, hrest.1,
    hrest.2, List.append_nil]

/-- Digits are read back. -/
theorem readDigits?_append {t rest : Text} (ht : IsDigits t)
    (hr : ∀ c ∈ rest.head?, c.isDigit = false) :
    readDigits? (t ++ rest) = some (t, rest) := by
  obtain ⟨d, ds, rfl, -⟩ := ht.exists_cons
  rw [readDigits?, takeDigits_append ht.isDigit hr]

/-- The whole part of a numeral is read back. -/
theorem readWhole?_append {t rest : Text} (ht : IsWhole t)
    (hr : ∀ c ∈ rest.head?, c.isDigit = false) :
    readWhole? (t ++ rest) = some (t, rest) := by
  obtain ⟨d, ds, rfl, -⟩ := ht.toIsDigits.exists_cons
  by_cases hd : d = '0'
  · subst hd
    obtain rfl : ds = [] := by simpa using ht.zero rfl
    rcases rest with _ | ⟨c, rest⟩
    · rfl
    · simp [readWhole?, hr c rfl]
  · rw [List.cons_append, readWhole?]
    · exact readDigits?_append ht.toIsDigits hr
    · exact fun _ h => hd (List.cons.inj h).1

/-- The decimal places of a numeral are read back. -/
theorem readPlaces?_append {t rest : Text} (ht : IsPlaces t)
    (hr : ∀ c ∈ rest.head?, c.isDigit = false ∧ c ≠ '.') :
    readPlaces? (t ++ rest) = some (t, rest) := by
  cases ht with
  | none =>
    rw [List.nil_append, readPlaces?]
    rintro more rfl
    exact (hr '.' rfl).2 rfl
  | some h =>
    rw [List.cons_append, readPlaces?, readDigits?_append h fun c hc =>
      (hr c hc).1]
    rfl

/-- The exponent of a numeral is read back. -/
theorem readExponent?_append {t rest : Text} (ht : IsExponent t)
    (hr : Apart rest) : readExponent? (t ++ rest) = some (t, rest) := by
  cases ht with
  | none =>
    rcases rest with _ | ⟨c, rest⟩
    · rfl
    · have := hr c rfl
      simp only [continues, Bool.or_eq_false_iff] at this
      simp [readExponent?, this]
  | plain h =>
    obtain ⟨d, ds, rfl, hd⟩ := h.exists_cons
    have hread := readDigits?_append h hr.not_isDigit
    rw [List.cons_append] at hread
    simp [readExponent?, ne_of_isDigit hd, hread]
  | minus h =>
    simp [readExponent?, readDigits?_append h hr.not_isDigit]

/-- Before an exponent, or where there is none, the places end. -/
theorem IsExponent.head_append {t rest : Text} (ht : IsExponent t)
    (hr : Apart rest) :
    ∀ c ∈ (t ++ rest).head?, c.isDigit = false ∧ c ≠ '.' := by
  cases ht with
  | none =>
    intro c hc
    have := hr c hc
    simp only [continues, Bool.or_eq_false_iff, beq_eq_false_iff_ne] at this
    exact ⟨this.1.1.1, this.1.1.2⟩
  | plain h => simp
  | minus h => simp

/-- Before the places, or where there are none, the whole part ends. -/
theorem IsPlaces.head_append {t rest : Text} (ht : IsPlaces t)
    (hr : ∀ c ∈ rest.head?, c.isDigit = false ∧ c ≠ '.') :
    ∀ c ∈ (t ++ rest).head?, c.isDigit = false := by
  cases ht with
  | none => exact fun c hc => (hr c hc).1
  | some h => simp

/-- A numeral starts with a digit or a sign. -/
theorem IsNumeral.exists_cons {t : Text} (h : IsNumeral t) :
    ∃ c more, t = c :: more ∧ (c.isDigit = true ∨ c = '-') := by
  cases h with
  | plain hw hp he =>
    obtain ⟨d, ds, rfl, hd⟩ := hw.toIsDigits.exists_cons
    exact ⟨d, _, rfl, .inl hd⟩
  | minus hw hp he => exact ⟨'-', _, rfl, .inr rfl⟩

/-- A numeral is read up to its end. -/
theorem readNumber?_append {t rest : Text} (ht : IsNumeral t)
    (hr : Apart rest) : readNumber? (t ++ rest) = some (t, rest) := by
  cases ht with
  | plain hw hp he =>
    have hplaces := he.head_append hr
    have hwhole := readWhole?_append hw (hp.head_append hplaces)
    obtain ⟨d, ds, rfl, hd⟩ := hw.toIsDigits.exists_cons
    have hsign : d ≠ '-' := ne_of_isDigit hd (by decide)
    rw [List.cons_append] at hwhole
    simp [readNumber?, hsign, hwhole, readPlaces?_append hp hplaces,
      readExponent?_append he hr]
  | minus hw hp he =>
    have hplaces := he.head_append hr
    simp [readNumber?, readWhole?_append hw (hp.head_append hplaces),
      readPlaces?_append hp hplaces, readExponent?_append he hr]

-- ======================================================= whole numbers

theorem isDigits_ofNat (n : Nat) : IsDigits (Text.ofNat n) :=
  ⟨Nat.toDigits_ne_nil, fun _ =>
    Nat.isDigit_of_mem_toDigits (by decide) (by decide)⟩

/-- Only zero is written with a zero in front. -/
theorem eq_zero_of_head?_ofNat {n : Nat}
    (h : (Text.ofNat n).head? = some '0') : n = 0 := by
  induction n using Nat.strongRecOn with
  | _ n ih =>
    rcases Nat.lt_or_ge n 10 with hn | hn
    · have key : ∀ d < 10, Nat.digitChar d = '0' → d = 0 := by decide
      rw [Text.ofNat, Nat.toDigits_of_lt_base hn] at h
      exact key n hn (by simpa using h)
    · obtain ⟨d, ds, e, -⟩ := (isDigits_ofNat (n / 10)).exists_cons
      rw [Text.ofNat, Nat.toDigits_of_base_le (by decide) hn,
        ← Text.ofNat, e] at h
      have := ih (n / 10) (by omega) (e ▸ h)
      omega

theorem isWhole_ofNat (n : Nat) : IsWhole (Text.ofNat n) where
  toIsDigits := isDigits_ofNat n
  zero h := by rw [eq_zero_of_head?_ofNat h]; rfl

theorem isNumeral_ofNat (n : Nat) : IsNumeral (Text.ofNat n) := by
  simpa using IsNumeral.plain (isWhole_ofNat n) .none .none

theorem isNumeral_ofInt (i : Int) : IsNumeral (Text.ofInt i) := by
  cases i with
  | ofNat n => exact isNumeral_ofNat n
  | negSucc n =>
    have h := IsNumeral.minus (isWhole_ofNat (n + 1)) .none .none
    simp only [List.append_nil] at h
    exact h

/-- An integer behind an `e` is an exponent. -/
private theorem isExponent_ofInt (i : Int) :
    IsExponent ('e' :: Text.ofInt i) := by
  rcases i with n | n
  · exact .plain (isDigits_ofNat n)
  · exact .minus (isDigits_ofNat (n + 1))

end CopyrightNotice.Json

-- =================================================== shortest decimals

namespace CopyrightNotice.Decimal

namespace Exact

variable {v : Exact}

/-- Zero rounds to no other value. -/
theorem ne_zero_of_isReadFrom {count : Nat} {unit : Int} (hv : v.mantissa ≠ 0)
    (h : v.isReadFrom count unit = true) : count ≠ 0 := by
  rintro rfl
  have hreach : v.reach.1 ≤ 2 := by
    simp only [reach]
    split <;> omega
  have hscale : 0 < v.scaleUp * Nat.pow 10 (-unit).toNat :=
    Nat.mul_pos (Nat.pow_pos (by decide)) (Nat.pow_pos (by decide))
  have hlow : 0
      < (4 * v.mantissa - v.reach.1) *
        (v.scaleUp * Nat.pow 10 (-unit).toNat) :=
    Nat.mul_pos (by omega) hscale
  simp only [isReadFrom, Nat.mul_zero, Nat.zero_mul] at h
  split at h
  · exact absurd (of_decide_eq_true (Bool.and_eq_true _ _ ▸ h).1) (by omega)
  · exact absurd (of_decide_eq_true (Bool.and_eq_true _ _ ▸ h).1) (by omega)

/-- The nearest count to a value that is not zero is not zero. -/
private theorem ne_zero_of_nearest? {count : Nat} {unit : Int}
    (hv : v.mantissa ≠ 0) (h : v.nearest? unit = some count) : count ≠ 0 := by
  unfold nearest? at h
  extract_lets num den below nearer other at h
  split at h
  · obtain rfl := Option.some.inj h
    exact ne_zero_of_isReadFrom hv ‹_›
  split at h
  · obtain rfl := Option.some.inj h
    exact ne_zero_of_isReadFrom hv ‹_›
  · cases h

/-- A search without a hit ends with zero; a hit is never zero. -/
private theorem firstHit_eq_or (hv : v.mantissa ≠ 0) (point : Int)
    (digits tries : Nat) :
    v.firstHit point digits tries = (0, 0)
      ∨ (v.firstHit point digits tries).1 ≠ 0 := by
  induction tries generalizing digits with
  | zero => exact .inl rfl
  | succ tries ih =>
    rw [firstHit]
    split
    · exact .inr (ne_zero_of_nearest? hv ‹_›)
    · exact ih (digits + 1)

end Exact

namespace Scientific

/-- Digits with a first one that is not zero. -/
structure Leads (t : Text) : Prop extends Json.IsDigits t where
  lead : t.head? ≠ some '0'

/-- The digits of a number that is not zero start with another digit than
zero. -/
private theorem leads_ofNat {n : Nat} (hn : n ≠ 0) : Leads (Text.ofNat n) where
  toIsDigits := Json.isDigits_ofNat n
  lead h := hn (Json.eq_zero_of_head?_ofNat h)

theorem Leads.isWhole {t : Text} (h : Leads t) : Json.IsWhole t where
  toIsDigits := h.toIsDigits
  zero hz := absurd hz h.lead

/-- A front part that is not empty leads as the whole does. -/
theorem Leads.of_prefix {s t : Text} (ht : Leads t) (hs : s ≠ [])
    (h : s <+: t) : Leads s := by
  obtain ⟨more, rfl⟩ := h
  obtain ⟨d, ds, rfl⟩ := List.exists_cons_of_ne_nil hs
  exact ⟨⟨hs, fun c hc => ht.isDigit c (List.mem_append_left _ hc)⟩, ht.lead⟩

/-- Zeros at the end leave the first digit as it is. -/
private theorem Leads.append_zeros {t : Text} (ht : Leads t) (k : Nat) :
    Leads (t ++ List.replicate k '0') := by
  obtain ⟨d, ds, rfl, -⟩ := ht.toIsDigits.exists_cons
  refine ⟨⟨List.cons_ne_nil _ _, fun c hc => ?_⟩, ht.lead⟩
  rcases List.mem_append.1 hc with hc | hc
  · exact ht.isDigit c hc
  · rw [List.eq_of_mem_replicate hc]; rfl

/-- Taking zeros off the end leaves the first digit. -/
private theorem leads_dropEndWhile {t : Text} (ht : Leads t) :
    Leads (Text.dropEndWhile (· == '0') t) := by
  refine ht.of_prefix (fun h => ?_) (Text.dropEndWhile_isPrefix _ t)
  obtain ⟨d, ds, rfl, -⟩ := ht.toIsDigits.exists_cons
  have hzero := List.rdropWhile_eq_nil_iff.1 h d List.mem_cons_self
  exact ht.lead (by simpa using hzero)

/-- What is written has a whole part, and decimal places or an
exponent. -/
theorem isNumeral_render {s : Scientific} (h : Leads s.digits) :
    Json.IsNumeral s.render := by
  have hzero : Json.IsDigits ['0'] := Json.isDigits_ofNat 0
  have hdrop (k : Nat) : ∀ c ∈ s.digits.drop k, c.isDigit = true :=
    fun c hc => h.isDigit c (List.mem_of_mem_drop hc)
  have hlen : 0 < s.digits.length := List.length_pos_iff.2 h.ne_nil
  unfold render
  extract_lets n zeros
  split
  · split
    · -- all digits stand in front of the point
      have hw := (h.append_zeros (s.point - n).toNat).isWhole
      simpa using Json.IsNumeral.plain hw (.some hzero) .none
    · -- the point stands between two digits
      rename_i hpoint hn
      simp only [Bool.and_eq_true, decide_eq_true_eq] at hpoint
      have htake : s.digits.take s.point.toNat ≠ [] := by
        rw [← List.length_pos_iff, List.length_take]; omega
      have hrest : s.digits.drop s.point.toNat ≠ [] := by
        rw [← List.length_pos_iff, List.length_drop]; omega
      have hw := (h.of_prefix htake (List.take_prefix _ _)).isWhole
      simpa using Json.IsNumeral.plain hw (.some ⟨hrest, hdrop _⟩) .none
  · split
    · -- the point stands in front of all digits
      have hw : Json.IsWhole ['0'] := Json.isWhole_ofNat 0
      have hp : Json.IsDigits (zeros (-s.point) ++ s.digits) := by
        refine ⟨by simp [h.ne_nil], fun c hc => ?_⟩
        rcases List.mem_append.1 hc with hc | hc
        · rw [List.eq_of_mem_replicate hc]; rfl
        · exact h.isDigit c hc
      simpa using Json.IsNumeral.plain hw (.some hp) .none
    · -- one digit, the others as its decimal places, and an exponent
      have htake : s.digits.take 1 ≠ [] := by
        rw [← List.length_pos_iff, List.length_take]; omega
      have hw := (h.of_prefix htake (List.take_prefix _ _)).isWhole
      have hp : Json.IsPlaces
          (if n = 1 then [] else '.' :: s.digits.drop 1) := by
        split
        · exact .none
        · have hrest : s.digits.drop 1 ≠ [] := by
            rw [← List.length_pos_iff, List.length_drop]; omega
          exact .some ⟨hrest, hdrop _⟩
      rw [List.append_assoc]
      exact .plain hw hp (Json.isExponent_ofInt (s.point - 1))

end Scientific

/-- A value is written as a numeral. -/
theorem isNumeral_render (v : Exact) : Json.IsNumeral (render v) := by
  have hzero : Json.IsNumeral ['0', '.', '0'] := by
    exact .plain (w := ['0']) (Json.isWhole_ofNat 0)
      (.some (Json.isDigits_ofNat 0)) .none
  unfold render
  split
  · exact hzero
  · rename_i hv
    simp only [Exact.shortest]
    rcases v.firstHit_eq_or hv _ 1 17 with h | h
    · -- no hit: no digits in front of the point
      rw [h]
      exact hzero
    · exact Scientific.isNumeral_render (Scientific.leads_dropEndWhile
        (Scientific.leads_ofNat h))

end CopyrightNotice.Decimal
