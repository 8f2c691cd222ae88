/-!
# Faults of UTF-8

Where a byte sequence stops being UTF-8, for messages: behind the longest valid beginning, either
the sequence ends inside a character, or some bytes cannot begin a character. Of those as many are
blamed as could still have been the beginning of one, and at least the first.
-/

namespace StackMachine.Utf8

/-- Why a byte sequence is not UTF-8; `index` counts the valid bytes before the fault. -/
inductive Fault where
  /-- So many bytes begin no character. -/
  | invalid (index count : Nat)
  /-- The sequence ends inside a character. -/
  | incomplete (index : Nat)
  deriving DecidableEq

/-- The wording of a fault. -/
def Fault.message : Fault → String
  | invalid index count => s!"invalid utf-8 sequence of {count} bytes from index {index}"
  | incomplete index => s!"incomplete utf-8 byte sequence from index {index}"

/-- The bytes that may follow the first one of a character of two bytes or more, as a range, and how
many follow in all. -/
def followers? (first : UInt8) : Option ((UInt8 × UInt8) × Nat) :=
  if 0xC2 ≤ first ∧ first ≤ 0xDF then some ((0x80, 0xBF), 1)
  else if first = 0xE0 then some ((0xA0, 0xBF), 2)
  else if first = 0xED then some ((0x80, 0x9F), 2)
  else if 0xE1 ≤ first ∧ first ≤ 0xEF then some ((0x80, 0xBF), 2)
  else if first = 0xF0 then some ((0x90, 0xBF), 3)
  else if first = 0xF4 then some ((0x80, 0x8F), 3)
  else if 0xF1 ≤ first ∧ first ≤ 0xF3 then some ((0x80, 0xBF), 3)
  else none

/-- What stands at the front of a byte sequence. -/
inductive Front where
  /-- A character of so many bytes. -/
  | character (size : Nat)
  /-- So many bytes that begin no character. -/
  | wrong (count : Nat)
  /-- The beginning of a character, cut off. -/
  | cut

/-- Reads the `left` bytes that are to follow `read` bytes of a character; the next one is in the
range. -/
def readFollowers (range : UInt8 × UInt8) (read : Nat) : Nat → List UInt8 → Front
  | 0, _ => .character read
  | _ + 1, [] => .cut
  | left + 1, b :: bs =>
    if range.1 ≤ b ∧ b ≤ range.2 then readFollowers (0x80, 0xBF) (read + 1) left bs
    else .wrong read

/-- What stands at the front of a byte sequence that is not empty. -/
def readFront (first : UInt8) (bs : List UInt8) : Front :=
  if first < 0x80 then .character 1
  else
    match followers? first with
    | none => .wrong 1
    | some (range, left) => readFollowers range 1 left bs

/-- The first fault behind `skip` bytes, which are known to be valid. -/
def faultAfter : (skip index : Nat) → List UInt8 → Option Fault
  | _, _, [] => none
  | skip + 1, index, _ :: bs => faultAfter skip (index + 1) bs
  | 0, index, b :: bs =>
    match readFront b bs with
    | .character size => faultAfter (size - 1) (index + 1) bs
    | .wrong count => some (.invalid index count)
    | .cut => some (.incomplete index)

/-- The first fault of a byte sequence. -/
def fault? (bytes : List UInt8) : Option Fault := faultAfter 0 0 bytes

example : fault? [0x61, 0xC3, 0xA9, 0xFF] = some (.invalid 3 1) := by decide
example : fault? [0xF0, 0x9F, 0x98] = some (.incomplete 0) := by decide
example : fault? [0xF0, 0x9F, 0x98, 0x41] = some (.invalid 0 3) := by decide
example : fault? [0xED, 0xA0, 0x80] = some (.invalid 0 1) := by decide

end StackMachine.Utf8
