/-
The index of a repository as a file: a signature, a version and a count,
then that many entries, extensions, and a checksum.

An entry starts with what was known of the file when it was staged; only
its mode is read here. Flags follow, which hold the stage, and then the
path. Up to version 3 zeros after the path fill the entry up to a multiple
of eight bytes, at least one of them. In version 4 a path is the beginning
of the path before it, less so many bytes, and its own end.

Neither the extensions nor the checksum are looked into, but the bytes of
a checksum have to be there. What is written is version 2, and reading
gives back what was written.
-/
import CopyrightNotice.Repository.Staged

namespace CopyrightNotice.Index

-- ============================================================== numbers

/-- The number that bytes spell, the highest byte first. -/
def number (b : Bytes) : Nat := b.foldl (fun n byte => 256 * n + byte.toNat) 0

/-- A number spelled in so many bytes. -/
def spell : Nat → Nat → Bytes
  | 0, _ => []
  | size + 1, n => spell size (n / 256) ++ [UInt8.ofNat n]

/-- How many numbers there are that so many bytes can spell. -/
def capacity : Nat → Nat
  | 0 => 1
  | size + 1 => 256 * capacity size

/-- Bytes that say nothing. -/
def zeros (n : Nat) : Bytes := List.replicate n 0

/-- So many bytes, and what follows them. -/
def take? (n : Nat) (b : Bytes) : Option (Bytes × Bytes) :=
  let front := b.take n
  if front.length = n then some (front, b.drop n) else none

theorem length_spell (size n : Nat) : (spell size n).length = size := by
  induction size generalizing n with
  | zero => rfl
  | succ size ih => simp [spell, ih]

theorem number_spell {size n : Nat} (h : n < capacity size) :
    number (spell size n) = n := by
  induction size generalizing n with
  | zero =>
    have : n = 0 := by simpa [capacity] using h
    simp [this, number, spell]
  | succ size ih =>
    have hd := ih (Nat.div_lt_of_lt_mul h)
    unfold number at hd ⊢
    simp only [spell, List.foldl_append, hd, List.foldl_cons, List.foldl_nil,
      UInt8.toNat_ofNat']
    omega

theorem take?_append {n : Nat} {front rest : Bytes} (h : front.length = n) :
    take? n (front ++ rest) = some (front, rest) := by
  subst h
  simp [take?]

-- ============================================================== entries

/-- Bytes of an entry in front of its mode. -/
def beforeMode : Nat := 24

/-- Bytes of an entry between its mode and its flags. -/
def beforeFlags : Nat := 32

/-- Bytes of an entry in front of its path, if its flags are not
extended. -/
def beforePath : Nat := 62

/-- The zeros that fill up an entry of so many bytes. -/
def fill (size : Nat) : Nat := 8 - size % 8

/-- The path of an entry that has so many bytes in front of it. -/
def wholePath? (size : Nat) (b : Bytes) : Option (Bytes × Bytes) := do
  let path := b.takeWhile (· != 0)
  let (_, rest) ← take? (fill (size + path.length)) (b.dropWhile (· != 0))
  return (path, rest)

/-- A count in groups of seven bits; every group but the last counts one
more. -/
def count? (n : Nat) : Bytes → Option (Nat × Bytes)
  | [] => none
  | byte :: rest =>
    let n := 128 * n + byte.toNat % 128
    if byte.toNat < 128 then some (n, rest) else count? (n + 1) rest

/-- The path of an entry that shares the beginning of the path before
it. -/
def sharedPath? (before : Bytes) (b : Bytes) : Option (Bytes × Bytes) := do
  let (less, b) ← count? 0 b
  let (_, rest) ← take? 1 (b.dropWhile (· != 0))
  if before.length < less then none
  else
    return (before.take (before.length - less) ++ b.takeWhile (· != 0), rest)

/-- An entry behind one with the path `before`. -/
def entry? (version : Nat) (before : Bytes) (b : Bytes) :
    Option (Staged × Bytes) := do
  let (_, b) ← take? beforeMode b
  let (mode, b) ← take? 4 b
  let (_, b) ← take? beforeFlags b
  let (flags, b) ← take? 2 b
  let further := if number flags / 0x4000 % 2 = 1 then 2 else 0
  let (_, b) ← take? further b
  let (path, b) ←
    if version = 4 then sharedPath? before b
      else wholePath? (beforePath + further) b
  return ({ path, mode := number mode, stage := number flags / 0x1000 % 4 }, b)

/-- So many entries. -/
def entries? (version : Nat) (before : Bytes) :
    Nat → Bytes → Option (List Staged × Bytes)
  | 0, b => some ([], b)
  | n + 1, b => do
    let (e, b) ← entry? version before b
    let (more, b) ← entries? version e.path n b
    return (e :: more, b)

/-- The flags of an entry: its stage, and the length of its path as far as
there is room. -/
def flags (e : Staged) : Nat := 0x1000 * e.stage + min e.path.length 0xFFF

/-- An entry as it is written. -/
def entry (e : Staged) : Bytes :=
  zeros beforeMode ++ (spell 4 e.mode ++ (zeros beforeFlags
    ++ (spell 2 (flags e)
      ++ (e.path ++ zeros (fill (beforePath + e.path.length))))))

-- ================================================================= file

/-- The bytes at the start of an index. -/
def signature : Bytes := Utf8.encode "DIRC".toList

/-- Bytes of a checksum. -/
def checksum : Nat := 20

/-- The entries of an index. -/
def read? (b : Bytes) : Option (List Staged) := do
  let (start, b) ← take? 4 b
  let (version, b) ← take? 4 b
  let (count, b) ← take? 4 b
  if start = signature ∧ 2 ≤ number version ∧ number version ≤ 4 then
    let (es, b) ← entries? (number version) [] (number count) b
    let _ ← take? checksum b
    return es
  else none

/-- The index with the given entries. -/
def write (es : List Staged) : Bytes :=
  signature ++ (spell 4 2
    ++ (spell 4 es.length ++ (es.flatMap entry ++ zeros checksum)))

-- =============================================== reading what was written

/-- Whether there is room for an entry in an index. -/
structure Fits (e : Staged) : Prop where
  path : 0 ∉ e.path
  mode : e.mode < capacity 4
  stage : e.stage < 4

private theorem takeWhile_path {p rest : Bytes} (h : 0 ∉ p) :
    (p ++ 0 :: rest).takeWhile (· != 0) = p := by
  induction p with
  | nil => simp
  | cons b p ih =>
    simp only [List.mem_cons, not_or] at h
    simp [Ne.symm h.1, ih h.2]

private theorem dropWhile_path {p rest : Bytes} (h : 0 ∉ p) :
    (p ++ 0 :: rest).dropWhile (· != 0) = 0 :: rest := by
  induction p with
  | nil => simp
  | cons b p ih =>
    simp only [List.mem_cons, not_or] at h
    simp [Ne.symm h.1, ih h.2]

private theorem wholePath?_append {p rest : Bytes} (size : Nat) (h : 0 ∉ p) :
    wholePath? size (p ++ (zeros (fill (size + p.length)) ++ rest))
      = some (p, rest) := by
  obtain ⟨n, hn⟩ : ∃ n, fill (size + p.length) = n + 1 :=
    ⟨7 - (size + p.length) % 8, by unfold fill; omega⟩
  have hz : zeros (n + 1) ++ rest = 0 :: (zeros n ++ rest) := rfl
  have htake : take? (n + 1) (zeros (n + 1) ++ rest)
      = some (zeros (n + 1), rest) :=
    take?_append (by simp [zeros])
  rw [hz] at htake
  simp [wholePath?, hn, hz, takeWhile_path h, dropWhile_path h, htake]

private theorem entry?_entry {e : Staged} (h : Fits e) (before rest : Bytes) :
    entry? 2 before (entry e ++ rest) = some (e, rest) := by
  have hlen : min e.path.length 0xFFF ≤ 0xFFF := Nat.min_le_right _ _
  have hflags : flags e < capacity 2 := by
    have := h.stage
    simp only [capacity, flags]; omega
  have hstage : flags e / 0x1000 % 4 = e.stage := by
    have := h.stage
    unfold flags; omega
  have hplain : ¬flags e / 0x4000 % 2 = 1 := by
    have := h.stage
    unfold flags; omega
  unfold entry? entry
  simp only [List.append_assoc]
  rw [take?_append (by simp [zeros])]
  simp only [Option.bind_eq_bind, Option.bind_some]
  rw [take?_append (length_spell _ _)]
  simp only [Option.bind_some]
  rw [take?_append (by simp [zeros])]
  simp only [Option.bind_some]
  rw [take?_append (length_spell _ _)]
  simp only [Option.bind_some, number_spell hflags, number_spell h.mode,
    if_neg hplain, hstage]
  rw [show take? 0
    (e.path ++ (zeros (fill (beforePath + e.path.length)) ++ rest)) = some ([],
      e.path ++ (zeros (fill (beforePath + e.path.length)) ++ rest)) from rfl]
  simp [wholePath?_append _ h.path]

private theorem entries?_flatMap {es : List Staged} (h : ∀ e ∈ es, Fits e)
    (before rest : Bytes) :
    entries? 2 before es.length (es.flatMap entry ++ rest)
      = some (es, rest) := by
  induction es generalizing before with
  | nil => rfl
  | cons e es ih =>
    have he := h e (by simp)
    have hes := ih (fun d hd => h d (by simp [hd])) e.path
    simp [entries?, entry?_entry he, hes]

/-- An index that was written is read back. -/
theorem read?_write {es : List Staged} (h : ∀ e ∈ es, Fits e)
    (hn : es.length < capacity 4) : read? (write es) = some es := by
  have hrest : take? checksum (zeros checksum) = some (zeros checksum, []) :=
    rfl
  unfold read? write
  rw [take?_append (show signature.length = 4 by decide)]
  simp only [Option.bind_eq_bind, Option.bind_some]
  rw [take?_append (length_spell _ _)]
  simp only [Option.bind_some]
  rw [take?_append (length_spell _ _)]
  simp only [Option.bind_some, number_spell hn,
    number_spell (show 2 < capacity 4 by decide)]
  simp [entries?_flatMap h, hrest]

end CopyrightNotice.Index
