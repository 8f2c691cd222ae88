/-!
# Numerals

Integers are signed 64-bit words, and their written form is decimal. Two readers share the digits:

* `scan` takes the longest numeral (an optional minus sign and digits) off the front of a text, and
  `word?` says whether the integer it denotes fits a word;
* `readInt` and `readCount` read a whole text typed by a user, where a plus sign is allowed too and
  the first fault met from the left is reported.

`decimal` writes the form that both read back.
-/

namespace StackMachine.Numeral

/-- The word equal to `n`, if `n` fits 64 bits with a sign. -/
def word? (n : Int) : Option Int64 :=
  if Int64.minValue.toInt ≤ n ∧ n ≤ Int64.maxValue.toInt then some (Int64.ofInt n) else none

/-- The decimal form of an integer: a minus sign if it is negative, then its digits. -/
def decimal (n : Int) : List Char :=
  if n < 0 then '-' :: Nat.toDigits 10 n.natAbs else Nat.toDigits 10 n.natAbs

/-- The digit of a value below 16. -/
def hexDigit (n : Nat) : Char := Nat.digitChar (n % 16)

/-- The hexadecimal form of a natural number, with digits up to `f`. -/
def hexadecimal (n : Nat) : List Char := Nat.toDigits 16 n

/-! ## Numerals in assembly text -/

/-- The sign in front of a numeral, and what follows it. -/
def splitSign : List Char → List Char × List Char
  | '-' :: cs => (['-'], cs)
  | cs => ([], cs)

/-- The longest numeral at the front of the text and the text after it; there is none unless a digit
stands at the front or directly behind a minus sign. -/
def scan (cs : List Char) : Option (List Char × List Char) :=
  match (splitSign cs).2.takeWhile Char.isDigit with
  | [] => none
  | d :: ds => some ((splitSign cs).1 ++ d :: ds, (splitSign cs).2.dropWhile Char.isDigit)

/-- The integer that a numeral denotes. -/
def denote (numeral : List Char) : Int :=
  match numeral with
  | '-' :: ds => -(Nat.ofDigitChars 10 ds 0 : Int)
  | ds => (Nat.ofDigitChars 10 ds 0 : Int)

/-! ## Numbers typed by a user -/

/-- Why a text is no number of the wanted range. -/
inductive Fault where
  /-- The text is empty. -/
  | empty
  /-- A character is no digit, or a sign stands alone. -/
  | invalidDigit
  /-- The number is above the range. -/
  | tooLarge
  /-- The number is below the range. -/
  | tooSmall
  deriving DecidableEq

/-- The wording of a fault. -/
def Fault.message : Fault → String
  | empty => "cannot parse integer from empty string"
  | invalidDigit => "invalid digit found in string"
  | tooLarge => "number too large to fit in target type"
  | tooSmall => "number too small to fit in target type"

/-- Reads digits from the left onto `acc`. At each character a wrong digit is reported before a
value that has passed `bound`. -/
def readDigits (bound : Nat) (beyond : Fault) : Nat → List Char → Except Fault Nat
  | acc, [] => .ok acc
  | acc, c :: cs =>
    if c.isDigit then
      let next := 10 * acc + (c.toNat - '0'.toNat)
      if next ≤ bound then readDigits bound beyond next cs else .error beyond
    else .error .invalidDigit

/-- Reads one or more digits. -/
def readMagnitude (bound : Nat) (beyond : Fault) : List Char → Except Fault Nat
  | [] => .error .invalidDigit
  | c :: cs => readDigits bound beyond 0 (c :: cs)

/-- Reads a whole text as a signed word: at most one sign, then digits. -/
def readInt : List Char → Except Fault Int64
  | [] => .error .empty
  | '-' :: cs =>
    (readMagnitude Int64.minValue.toInt.natAbs .tooSmall cs).map fun n => Int64.ofInt (-n)
  | '+' :: cs => (readMagnitude Int64.maxValue.toInt.natAbs .tooLarge cs).map fun n => Int64.ofInt n
  | cs => (readMagnitude Int64.maxValue.toInt.natAbs .tooLarge cs).map fun n => Int64.ofInt n

/-- Reads a whole text as a count of at most 64 bits: an optional plus sign, then digits. -/
def readCount : List Char → Except Fault Nat
  | [] => .error .empty
  | '+' :: cs => readMagnitude (UInt64.size - 1) .tooLarge cs
  | cs => readMagnitude (UInt64.size - 1) .tooLarge cs

/-- A numeral and the text after it make up the whole text. -/
theorem append_eq_of_scan {cs numeral rest : List Char} (h : scan cs = some (numeral, rest)) :
    numeral ++ rest = cs := by
  have hs : ∀ cs : List Char, (splitSign cs).1 ++ (splitSign cs).2 = cs := by
    intro cs
    unfold splitSign
    split <;> simp
  rw [scan] at h
  split at h
  · simp at h
  · rename_i d ds hd
    simp only [Option.some.injEq, Prod.mk.injEq] at h
    rw [← h.1, ← h.2, ← hd, List.append_assoc, List.takeWhile_append_dropWhile, hs]

example : scan "-12x".toList = some ("-12".toList, "x".toList) := by decide
example : scan "- 1".toList = none := by decide
example : (readInt "99999999999999999999x".toList).toOption = none := by decide
example : readInt "9223372036854775807x".toList = .error .invalidDigit := by rfl
example : readInt "-9223372036854775808".toList = .ok Int64.minValue := by rfl

end StackMachine.Numeral
