/-
Reading UTF-8 undoes writing it, and writing undoes reading.

The first fact is arithmetic: a sequence that `step` takes for a
character is the sequence that spells the character. The bounds on the
second byte are what makes it so, for they are the characters whose
shortest spelling this is. With one step known, whole inputs follow by
the recursion of the readers.

The main statements: bytes are a text exactly if some text is spelled by
them (`isText_iff`), and what is displayed of such bytes spells them
again (`encode_display`).
-/
import CopyrightNotice.Text.Utf8

namespace CopyrightNotice.Utf8

-- ================================================== bytes as numbers

/-- The number of a character made of a number is this number. -/
theorem toNat_ofNat {n : Nat} (h : n.isValidChar) :
    (Char.ofNat n).toNat = n := by
  rw [Char.ofNat, dif_pos h]
  rfl

/-- A byte is made again of its number. -/
theorem eq_ofNat {b : UInt8} {n : Nat} (h : n = b.toNat) :
    UInt8.ofNat n = b := by
  subst h
  exact UInt8.ofNat_toNat

/-- The bytes inside of a character are those between `80` and `BF`. -/
theorem isContinuation_iff {b : UInt8} :
    isContinuation b = true ↔ 0x80 ≤ b.toNat ∧ b.toNat ≤ 0xBF := by
  simp [isContinuation, UInt8.le_iff_toNat_le]

/-- The second byte is a continuation that leaves out the overlong forms,
the surrogates and the values past the last character. -/
theorem isSecond_iff {b c : UInt8} :
    isSecond b c = true
      ↔ 0x80 ≤ c.toNat
        ∧ c.toNat ≤ 0xBF
        ∧ (b.toNat = 0xE0 → 0xA0 ≤ c.toNat)
        ∧ (b.toNat = 0xED → c.toNat ≤ 0x9F)
        ∧ (b.toNat = 0xF0 → 0x90 ≤ c.toNat)
        ∧ (b.toNat = 0xF4 → c.toNat ≤ 0x8F) := by
  have key (n : UInt8) : (b == n) = true ↔ b.toNat = n.toNat := by
    rw [beq_iff_eq, UInt8.toNat_inj]
  unfold isSecond
  simp only [key]
  (repeat' split) <;>
    simp_all [isContinuation_iff, UInt8.le_iff_toNat_le] <;> omega

-- ================================== what is read spells what is there

/-- A character of one byte is written as this byte. -/
private theorem encode_one {b : UInt8} (hb : b.toNat < 0x80) :
    String.utf8EncodeChar (Char.ofNat b.toNat) = [b] := by
  have hv : (Char.ofNat b.toNat).val.toNat = b.toNat :=
    toNat_ofNat (.inl (by omega))
  simp only [String.utf8EncodeChar, hv]
  rw [if_pos (by omega), eq_ofNat rfl]

/-- A character of two bytes is written as these bytes. -/
private theorem encode_two {b c : UInt8} (hl : 0xC2 ≤ b.toNat)
    (hu : b.toNat < 0xE0) (hc : isContinuation c = true) :
    String.utf8EncodeChar (Char.ofNat (b.toNat % 32 * 64 + tail c))
      = [b, c] := by
  have hc := isContinuation_iff.1 hc
  generalize hn : b.toNat % 32 * 64 + tail c = n
  simp only [tail] at hn
  have hv : (Char.ofNat n).val.toNat = n := toNat_ofNat (.inl (by omega))
  simp only [String.utf8EncodeChar, hv]
  rw [if_neg (by omega), if_pos (by omega), eq_ofNat (b := b) (by omega),
    eq_ofNat (b := c) (by omega)]

/-- A character of three bytes is written as these bytes. -/
private theorem encode_three {b c d : UInt8} (hl : 0xE0 ≤ b.toNat)
    (hu : b.toNat < 0xF0) (hc : isSecond b c = true)
    (hd : isContinuation d = true) :
    String.utf8EncodeChar
        (Char.ofNat (b.toNat % 16 * 4096 + tail c * 64 + tail d))
      = [b, c, d] := by
  obtain ⟨hc, hc', overlong, surrogate, -⟩ := isSecond_iff.1 hc
  have hd := isContinuation_iff.1 hd
  generalize hn : b.toNat % 16 * 4096 + tail c * 64 + tail d = n
  simp only [tail] at hn
  have hv : (Char.ofNat n).val.toNat = n :=
    toNat_ofNat (by unfold Nat.isValidChar; omega)
  simp only [String.utf8EncodeChar, hv]
  rw [if_neg (by omega), if_neg (by omega), if_pos (by omega),
    eq_ofNat (b := b) (by omega), eq_ofNat (b := c) (by omega),
    eq_ofNat (b := d) (by omega)]

/-- A character of four bytes is written as these bytes. -/
private theorem encode_four {b c d e : UInt8} (hl : 0xF0 ≤ b.toNat)
    (hu : b.toNat < 0xF5) (hc : isSecond b c = true)
    (hd : isContinuation d = true) (he : isContinuation e = true) :
    String.utf8EncodeChar (Char.ofNat
        (b.toNat % 8 * 262144 + tail c * 4096 + tail d * 64 + tail e))
      = [b, c, d, e] := by
  obtain ⟨hc, hc', -, -, overlong, last⟩ := isSecond_iff.1 hc
  have hd := isContinuation_iff.1 hd
  have he := isContinuation_iff.1 he
  generalize hn : b.toNat % 8 * 262144 + tail c * 4096 + tail d * 64 + tail e
    = n
  simp only [tail] at hn
  have hv : (Char.ofNat n).val.toNat = n :=
    toNat_ofNat (by unfold Nat.isValidChar; omega)
  simp only [String.utf8EncodeChar, hv]
  rw [if_neg (by omega), if_neg (by omega), if_neg (by omega),
    eq_ofNat (b := b) (by omega), eq_ofNat (b := c) (by omega),
    eq_ofNat (b := d) (by omega), eq_ofNat (b := e) (by omega)]

/-- What is read as a character of two bytes is how it is written. -/
private theorem stepTwo_char {b : UInt8} {rest r : Bytes} {c : Char}
    (h : stepTwo b rest = .char c r) (hl : 0xC2 ≤ b.toNat)
    (hu : b.toNat < 0xE0) : b :: rest = String.utf8EncodeChar c ++ r := by
  revert h
  fun_cases stepTwo b rest with
  | case2 second rest hs =>
    intro h
    obtain ⟨rfl, rfl⟩ := Step.char.inj h
    rw [encode_two hl hu hs]; rfl
  | case1 => nofun
  | case3 => nofun

/-- What is read as a character of three bytes is how it is written. -/
private theorem stepThree_char {b : UInt8} {rest r : Bytes} {c : Char}
    (h : stepThree b rest = .char c r) (hl : 0xE0 ≤ b.toNat)
    (hu : b.toNat < 0xF0) : b :: rest = String.utf8EncodeChar c ++ r := by
  revert h
  fun_cases stepThree b rest with
  | case4 second hs third rest ht =>
    intro h
    obtain ⟨rfl, rfl⟩ := Step.char.inj h
    rw [encode_three hl hu (by simpa using hs) ht]; rfl
  | case1 => nofun
  | case2 => nofun
  | case3 => nofun
  | case5 => nofun

/-- What is read as a character of four bytes is how it is written. -/
private theorem stepFour_char {b : UInt8} {rest r : Bytes} {c : Char}
    (h : stepFour b rest = .char c r) (hl : 0xF0 ≤ b.toNat)
    (hu : b.toNat < 0xF5) : b :: rest = String.utf8EncodeChar c ++ r := by
  revert h
  fun_cases stepFour b rest with
  | case6 second hs third ht fourth rest hf =>
    intro h
    obtain ⟨rfl, rfl⟩ := Step.char.inj h
    rw [encode_four hl hu (by simpa using hs) (by simpa using ht) hf]; rfl
  | case1 => nofun
  | case2 => nofun
  | case3 => nofun
  | case4 => nofun
  | case5 => nofun
  | case7 => nofun

/-- A character that is read is spelled by the bytes it was read from. -/
private theorem eq_of_step_char {b : UInt8} {rest r : Bytes} {c : Char}
    (h : step b rest = .char c r) :
    b :: rest = String.utf8EncodeChar c ++ r := by
  simp only [step, UInt8.lt_iff_toNat_lt] at h
  split at h
  · obtain ⟨rfl, rfl⟩ := Step.char.inj h
    rw [encode_one ‹_›]; rfl
  split at h
  · cases h
  split at h
  · exact stepTwo_char h (Nat.le_of_not_lt ‹_›) ‹_›
  split at h
  · exact stepThree_char h (Nat.le_of_not_lt ‹_›) ‹_›
  split at h
  · exact stepFour_char h (Nat.le_of_not_lt ‹_›) ‹_›
  · cases h

-- ==================================== what is spelled is read from it

/-- Every number below 256 is that of a byte. -/
theorem exists_byte {n : Nat} (h : n < 256) :
    ∃ b : UInt8, UInt8.ofNat n = b ∧ b.toNat = n :=
  ⟨_, rfl, UInt8.toNat_ofNat_of_lt' h⟩

/-- One byte is read as a character. -/
private theorem step_one {b : UInt8} (rest : Bytes) (hb : b.toNat < 0x80) :
    step b rest = .char (Char.ofNat b.toNat) rest := by
  rw [step, if_pos (UInt8.lt_iff_toNat_lt.2 hb)]

/-- Two bytes are read as a character. -/
private theorem step_two {b c : UInt8} (rest : Bytes) (hl : 0xC2 ≤ b.toNat)
    (hu : b.toNat < 0xE0) (hc : isContinuation c = true) :
    step b (c :: rest)
      = .char (Char.ofNat (b.toNat % 32 * 64 + tail c)) rest := by
  simp only [step, UInt8.lt_iff_toNat_lt, UInt8.reduceToNat]
  rw [if_neg (by omega), if_neg (by omega), if_pos hu, stepTwo, if_pos hc]

/-- Three bytes are read as a character. -/
private theorem step_three {b c d : UInt8} (rest : Bytes) (hl : 0xE0 ≤ b.toNat)
    (hu : b.toNat < 0xF0) (hc : isSecond b c = true)
    (hd : isContinuation d = true) :
    step b (c :: d :: rest)
      = .char (Char.ofNat (b.toNat % 16 * 4096 + tail c * 64 + tail d))
        rest := by
  simp only [step, UInt8.lt_iff_toNat_lt, UInt8.reduceToNat]
  rw [if_neg (by omega), if_neg (by omega), if_neg (by omega), if_pos hu]
  simp [stepThree, hc, hd]

/-- Four bytes are read as a character. -/
private theorem step_four {b c d e : UInt8} (rest : Bytes)
    (hl : 0xF0 ≤ b.toNat) (hu : b.toNat < 0xF5) (hc : isSecond b c = true)
    (hd : isContinuation d = true) (he : isContinuation e = true) :
    step b (c :: d :: e :: rest)
      = .char
        (Char.ofNat
          (b.toNat % 8 * 262144 + tail c * 4096 + tail d * 64 + tail e))
        rest := by
  simp only [step, UInt8.lt_iff_toNat_lt, UInt8.reduceToNat]
  rw [if_neg (by omega), if_neg (by omega), if_neg (by omega),
    if_neg (by omega), if_pos hu]
  simp [stepFour, hc, hd, he]

/-- The first step over the spelling of a character reads the
character. -/
theorem exists_step_utf8EncodeChar (c : Char) (rest : Bytes) :
    ∃ b more, String.utf8EncodeChar c = b :: more
      ∧ step b (more ++ rest) = .char c rest := by
  have hvalid : c.toNat.isValidChar := c.valid
  have hc : Char.ofNat c.toNat = c := Char.ofNat_toNat c
  have hval : c.val.toNat = c.toNat := rfl
  simp only [String.utf8EncodeChar, hval]
  generalize c.toNat = n at hvalid hc
  subst hc
  unfold Nat.isValidChar at hvalid
  -- one case for each length; the bytes are named so that the arithmetic is
  -- about numbers below 256
  split
  · obtain ⟨b, eb, hb⟩ := exists_byte (n := n) (by omega)
    refine ⟨_, _, rfl, ?_⟩
    rw [eb, ← hb]
    exact step_one rest (by omega)
  split
  · obtain ⟨b, eb, hb⟩ := exists_byte (n := n / 64 % 32 + 192) (by omega)
    obtain ⟨c, ec, hc⟩ := exists_byte (n := n % 64 + 128) (by omega)
    refine ⟨_, _, rfl, ?_⟩
    rw [eb, ec]
    refine (step_two rest (by omega) (by omega)
        (isContinuation_iff.2 (by omega))).trans ?_
    rw [tail, show b.toNat % 32 * 64 + c.toNat % 64 = n by omega]
  split
  · obtain ⟨b, eb, hb⟩ := exists_byte (n := n / 4096 % 16 + 224) (by omega)
    obtain ⟨c, ec, hc⟩ := exists_byte (n := n / 64 % 64 + 128) (by omega)
    obtain ⟨d, ed, hd⟩ := exists_byte (n := n % 64 + 128) (by omega)
    refine ⟨_, _, rfl, ?_⟩
    rw [eb, ec, ed]
    refine (step_three rest (by omega) (by omega) (isSecond_iff.2 (by omega))
      (isContinuation_iff.2 (by omega))).trans ?_
    rw [tail, tail, show b.toNat % 16 * 4096 + c.toNat % 64 * 64 + d.toNat % 64
      = n by omega]
  · obtain ⟨b, eb, hb⟩ := exists_byte (n := n / 262144 % 8 + 240) (by omega)
    obtain ⟨c, ec, hc⟩ := exists_byte (n := n / 4096 % 64 + 128) (by omega)
    obtain ⟨d, ed, hd⟩ := exists_byte (n := n / 64 % 64 + 128) (by omega)
    obtain ⟨e, ee, he⟩ := exists_byte (n := n % 64 + 128) (by omega)
    refine ⟨_, _, rfl, ?_⟩
    rw [eb, ec, ed, ee]
    refine (step_four rest (by omega) (by omega) (isSecond_iff.2 (by omega))
      (isContinuation_iff.2 (by omega))
      (isContinuation_iff.2 (by omega))).trans ?_
    rw [tail, tail, tail, show b.toNat % 8 * 262144 + c.toNat % 64 * 4096
      + d.toNat % 64 * 64 + e.toNat % 64 = n by omega]

-- ======================================================== whole inputs

theorem encode_cons (c : Char) (t : Text) :
    encode (c :: t) = String.utf8EncodeChar c ++ encode t := rfl

theorem encode_append (s t : Text) : encode (s ++ t) = encode s ++ encode t :=
  List.flatMap_append

/-- A character that can be read is followed by what is read behind it. -/
private theorem decodeFrom_of_step {b : UInt8} {rest r : Bytes} {c : Char}
    (h : step b rest = .char c r) (index : Nat) :
    decodeFrom index (b :: rest)
      = (decodeFrom (index + c.utf8Size) r).map (c :: ·) := by
  rw [decodeFrom]
  split <;> rename_i h' <;> cases h.symm.trans h'
  rfl

/-- A character that can be read is displayed as it is. -/
private theorem display_of_step {b : UInt8} {rest r : Bytes} {c : Char}
    (h : step b rest = .char c r) : display (b :: rest) = c :: display r := by
  rw [display]
  split <;> rename_i h' <;> cases h.symm.trans h'
  rfl

/-- What was spelled is read. -/
private theorem decodeFrom_encode (index : Nat) (t : Text) :
    decodeFrom index (encode t) = .ok t := by
  induction t generalizing index with
  | nil => rw [encode, List.flatMap_nil, decodeFrom]
  | cons c t ih =>
    obtain ⟨b, more, e, hstep⟩ := exists_step_utf8EncodeChar c (encode t)
    rw [encode_cons, e, List.cons_append, decodeFrom_of_step hstep, ih]
    rfl

/-- What was spelled is displayed. -/
@[simp] theorem display_encode (t : Text) : display (encode t) = t := by
  induction t with
  | nil => rw [encode, List.flatMap_nil, display]
  | cons c t ih =>
    obtain ⟨b, more, e, hstep⟩ := exists_step_utf8EncodeChar c (encode t)
    rw [encode_cons, e, List.cons_append, display_of_step hstep, ih]

/-- What was read spells the input. -/
private theorem encode_of_decodeFrom {index : Nat} {bytes : Bytes} {t : Text}
    (h : decodeFrom index bytes = .ok t) : encode t = bytes := by
  fun_induction decodeFrom index bytes generalizing t with
  | case1 index => cases h; rfl
  | case2 index b rest c r hstep ih =>
    rcases hr : decodeFrom (index + c.utf8Size) r with fault | more
    · rw [hr] at h; cases h
    · rw [hr] at h
      cases h
      rw [encode_cons, ih hr, ← eq_of_step_char hstep]
  | case3 => cases h
  | case4 => cases h

/-- Bytes are read as a text exactly if they are how it is written. -/
theorem decode_eq_ok_iff {bytes : Bytes} {t : Text} :
    decode bytes = .ok t ↔ encode t = bytes :=
  ⟨encode_of_decodeFrom, fun h => h ▸ decodeFrom_encode 0 t⟩

/-- What a text is written as can be read. -/
theorem isText_encode (t : Text) : isText (encode t) = true := by
  rw [isText, decode_eq_ok_iff.2 rfl]

/-- Bytes are a text if and only if they spell one. -/
theorem isText_iff {bytes : Bytes} :
    isText bytes = true ↔ ∃ t, encode t = bytes := by
  refine ⟨fun h => ?_, fun ⟨t, ht⟩ => ht ▸ isText_encode t⟩
  unfold isText at h
  split at h
  · exact ⟨_, decode_eq_ok_iff.1 ‹_›⟩
  · cases h

/-- What is displayed of a text spells the text. -/
theorem encode_display {bytes : Bytes} (h : isText bytes = true) :
    encode (display bytes) = bytes := by
  obtain ⟨t, rfl⟩ := isText_iff.1 h
  rw [display_encode]

end CopyrightNotice.Utf8
