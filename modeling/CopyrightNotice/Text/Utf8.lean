/-
UTF-8, read one character at a time. `step` looks at the front of a byte
list and says what stands there: a character, a malformed sequence of a
known length, or the start of a sequence that the input cuts off. Reading
a text stops at the first fault and names its place; reading for display
puts U+FFFD in the place of each fault and goes on.

A malformed sequence is as long as it could still have become a
character: a lead byte and every continuation that may follow it.
-/
import CopyrightNotice.Text.Basic

namespace CopyrightNotice.Utf8

/-- The bytes of a text. -/
def encode (t : Text) : Bytes := t.flatMap String.utf8EncodeChar

-- ================================================== one step of reading

/-- What stands at the front of a byte list. The rest is what follows. -/
inductive Step where
  /-- A character. -/
  | char (c : Char) (rest : Bytes)
  /-- A sequence of `length` bytes that no continuation makes a
  character. -/
  | malformed (length : Nat) (rest : Bytes)
  /-- A sequence that may become a character, at the end of the input. -/
  | unfinished

/-- The input after the step. -/
def Step.rest : Step → Bytes
  | .char _ rest => rest
  | .malformed _ rest => rest
  | .unfinished => []

/-- A continuation byte holds six bits. -/
def isContinuation (b : UInt8) : Bool := 0x80 ≤ b && b ≤ 0xBF

/-- The bits of a continuation byte. -/
def tail (b : UInt8) : Nat := b.toNat % 64

/-- The second bytes that may follow a lead byte of a sequence of three or
four: overlong forms, surrogates and values past U+10FFFF have none. -/
def isSecond (lead second : UInt8) : Bool :=
  if lead == 0xE0 then 0xA0 ≤ second && second ≤ 0xBF
  else if lead == 0xED then 0x80 ≤ second && second ≤ 0x9F
  else if lead == 0xF0 then 0x90 ≤ second && second ≤ 0xBF
  else if lead == 0xF4 then 0x80 ≤ second && second ≤ 0x8F
  else isContinuation second

/-- Reads two bytes: the lead `b` and one continuation. -/
def stepTwo (b : UInt8) : Bytes → Step
  | [] => .unfinished
  | c :: rest =>
    if isContinuation c
      then .char (Char.ofNat (b.toNat % 32 * 64 + tail c)) rest
    else .malformed 1 (c :: rest)

/-- Reads three bytes: the lead `b` and two continuations. -/
def stepThree (b : UInt8) : Bytes → Step
  | [] => .unfinished
  | c :: rest =>
    if !isSecond b c then .malformed 1 (c :: rest)
    else match rest with
      | [] => .unfinished
      | d :: rest =>
        if isContinuation d then
          .char (Char.ofNat (b.toNat % 16 * 4096 + tail c * 64 + tail d)) rest
        else .malformed 2 (d :: rest)

/-- Reads four bytes: the lead `b` and three continuations. -/
def stepFour (b : UInt8) : Bytes → Step
  | [] => .unfinished
  | c :: rest =>
    if !isSecond b c then .malformed 1 (c :: rest)
    else match rest with
      | [] => .unfinished
      | d :: rest =>
        if !isContinuation d then .malformed 2 (d :: rest)
        else match rest with
          | [] => .unfinished
          | e :: rest =>
            if isContinuation e then
              .char (Char.ofNat (b.toNat % 8 * 262144 + tail c * 4096
                  + tail d * 64 + tail e)) rest
            else .malformed 3 (e :: rest)

/-- Reads the sequence that starts with the byte `b`. -/
def step (b : UInt8) (rest : Bytes) : Step :=
  if b < 0x80 then .char (Char.ofNat b.toNat) rest
  else if b < 0xC2 then .malformed 1 rest
  else if b < 0xE0 then stepTwo b rest
  else if b < 0xF0 then stepThree b rest
  else if b < 0xF5 then stepFour b rest
  else .malformed 1 rest

private theorem length_rest_stepTwo (b : UInt8) (rest : Bytes) :
    (stepTwo b rest).rest.length ≤ rest.length := by
  unfold stepTwo
  (repeat' split) <;> simp [Step.rest]

private theorem length_rest_stepThree (b : UInt8) (rest : Bytes) :
    (stepThree b rest).rest.length ≤ rest.length := by
  unfold stepThree
  (repeat' split) <;> simp [Step.rest]
  omega

private theorem length_rest_stepFour (b : UInt8) (rest : Bytes) :
    (stepFour b rest).rest.length ≤ rest.length := by
  unfold stepFour
  (repeat' split) <;> simp [Step.rest]
  omega

/-- What is left after a step is no longer than what followed the lead
byte. -/
private theorem length_rest_step (b : UInt8) (rest : Bytes) :
    (step b rest).rest.length ≤ rest.length := by
  unfold step
  split
  · simp [Step.rest]
  split
  · simp [Step.rest]
  split
  · exact length_rest_stepTwo b rest
  split
  · exact length_rest_stepThree b rest
  split
  · exact length_rest_stepFour b rest
  · simp [Step.rest]

theorem length_lt_of_step_eq {b : UInt8} {rest : Bytes} {s : Step}
    (h : step b rest = s) : s.rest.length < (b :: rest).length := by
  have := length_rest_step b rest
  rw [h] at this
  simp only [List.length_cons]
  omega

-- ======================================================== whole inputs

/-- Why bytes are not a text, and the place of the first bad sequence. -/
inductive Fault where
  /-- `length` bytes from `index` on are no character. -/
  | malformed (length index : Nat)
  /-- The input ends within the sequence at `index`. -/
  | unfinished (index : Nat)
deriving DecidableEq, Repr

/-- The sentence for a fault. -/
def Fault.message : Fault → String
  | .malformed length index =>
      s!"invalid utf-8 sequence of {length} bytes from index {index}"
  | .unfinished index => s!"incomplete utf-8 byte sequence from index {index}"

/-- The text of bytes that start at place `index` of the input. -/
def decodeFrom (index : Nat) : Bytes → Except Fault Text
  | [] => .ok []
  | b :: rest =>
    match _h : step b rest with
    | .char c r => (decodeFrom (index + c.utf8Size) r).map (c :: ·)
    | .malformed n _ => .error (.malformed n index)
    | .unfinished => .error (.unfinished index)
termination_by bytes => bytes.length
decreasing_by exact length_lt_of_step_eq _h

/-- The text that the bytes spell, or the first fault. -/
def decode (bytes : Bytes) : Except Fault Text := decodeFrom 0 bytes

/-- Whether the bytes spell a text. -/
def isText (bytes : Bytes) : Bool :=
  match decode bytes with
  | .ok _ => true
  | .error _ => false

/-- The text for a reader: U+FFFD in the place of each bad sequence. -/
def display : Bytes → Text
  | [] => []
  | b :: rest =>
    match _h : step b rest with
    | .char c r => c :: display r
    | .malformed _ r => '\uFFFD' :: display r
    | .unfinished => ['\uFFFD']
termination_by bytes => bytes.length
decreasing_by
  · exact length_lt_of_step_eq _h
  · exact length_lt_of_step_eq _h

end CopyrightNotice.Utf8
