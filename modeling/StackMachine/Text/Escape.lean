/-!
# Escaped text

The body of a string literal: characters that stand for themselves, and escapes that begin with a
backslash. `unescape` reads a body from the left, one unit after another: a character, or a
backslash with what it takes in. It recurses on the text with a count of the characters that the
last escape has used up, so that it computes by plain recursion on the list; `unescapeAfter_eq_drop`
says that the count is a plain `drop`.
-/

namespace StackMachine.Escape

/-- Why a body is no escaped text. -/
inductive Fault where
  /-- The body ends behind a backslash. -/
  | unterminated
  /-- An escape by number wants `count` hexadecimal digits, and these characters follow. -/
  | hexDigits (count : Nat) (found : List Char)
  /-- The number names no Unicode scalar value. -/
  | codePoint (code : Nat)
  /-- An octal escape has fewer than three characters or one that is no octal digit. -/
  | octalDigits (found : List Char)
  /-- An octal escape is above 255. -/
  | octalRange (digits : List Char)
  /-- No escape has this name. -/
  | unknown (name : Char)
  deriving DecidableEq

/-- The wording of a fault. -/
def Fault.message : Fault → String
  | unterminated => "unterminated escape sequence"
  | hexDigits count found => s!"expected {count} hex digits in escape, got '{String.ofList found}'"
  | codePoint code => s!"invalid code point 0x{String.ofList (Nat.toDigits 16 code)}"
  | octalDigits found => s!"invalid octal escape \\{String.ofList found}"
  | octalRange digits => s!"octal escape \\{String.ofList digits} out of range"
  | unknown name => s!"unknown escape sequence \\{name}"

/-- The value of a digit in a base up to 16, in either case. -/
def digitValue? (c : Char) : Option Nat :=
  if '0' ≤ c ∧ c ≤ '9' then some (c.toNat - '0'.toNat)
  else if 'a' ≤ c ∧ c ≤ 'f' then some (c.toNat - 'a'.toNat + 10)
  else if 'A' ≤ c ∧ c ≤ 'F' then some (c.toNat - 'A'.toNat + 10)
  else none

/-- The character is a digit of the base. -/
def isDigitOf (base : Nat) (c : Char) : Bool := (digitValue? c).any (· < base)

/-- The number that digits of the base denote. -/
def valueOf (base : Nat) (digits : List Char) : Nat :=
  digits.foldl (fun n c => base * n + (digitValue? c).getD 0) 0

/-- The character with this code, if the code is a Unicode scalar value. -/
def scalar? (code : Nat) : Option Char :=
  if code.isValidChar then some (Char.ofNat code) else none

/-- The escapes of one letter. -/
def simple? : Char → Option Char
  | 'a' => some '\x07'
  | 'b' => some '\x08'
  | 'f' => some '\x0c'
  | 'n' => some '\n'
  | 'r' => some '\r'
  | 't' => some '\t'
  | 'v' => some '\x0b'
  | '\\' => some '\\'
  | '\x27' => some '\x27'
  | '"' => some '"'
  | _ => none

/-- The number of hexadecimal digits that an escape by number takes. -/
def hexWidth? : Char → Option Nat
  | 'x' => some 2
  | 'u' => some 4
  | 'U' => some 8
  | _ => none

/-- The character that exactly `count` hexadecimal digits name. -/
def hexChar (count : Nat) (digits : List Char) : Except Fault Char :=
  if digits.length = count ∧ digits.all (isDigitOf 16) then
    match scalar? (valueOf 16 digits) with
    | some c => .ok c
    | none => .error (.codePoint (valueOf 16 digits))
  else .error (.hexDigits count digits)

/-- The character that exactly three octal digits name. -/
def octalChar (digits : List Char) : Except Fault Char :=
  if digits.length = 3 ∧ digits.all (isDigitOf 8) then
    if valueOf 8 digits ≤ 0xFF then .ok (Char.ofNat (valueOf 8 digits))
    else .error (.octalRange digits)
  else .error (.octalDigits digits)

/-- Reads one escape off the text behind a backslash: the character it denotes, and how many
characters of the text it takes in. -/
def escape : List Char → Except Fault (Char × Nat)
  | [] => .error .unterminated
  | name :: cs =>
    match simple? name, hexWidth? name with
    | some c, _ => .ok (c, 1)
    | none, some count => (hexChar count (cs.take count)).map fun c => (c, count + 1)
    | none, none =>
      if isDigitOf 8 name then (octalChar (name :: cs.take 2)).map fun c => (c, 3)
      else .error (.unknown name)

/-- Decodes the text past its first `used` characters. -/
def unescapeAfter : Nat → List Char → Except Fault (List Char)
  | _, [] => .ok []
  | used + 1, _ :: cs => unescapeAfter used cs
  | 0, c :: cs =>
    if c = '\\' then
      match escape cs with
      | .error fault => .error fault
      | .ok (d, used) => (unescapeAfter used cs).map (d :: ·)
    else (unescapeAfter 0 cs).map (c :: ·)

/-- The text that a body denotes. -/
def unescape (body : List Char) : Except Fault (List Char) := unescapeAfter 0 body

/-- What is decoded behind characters that were used. -/
theorem unescapeAfter_eq_drop (used : Nat) (cs : List Char) :
    unescapeAfter used cs = unescape (cs.drop used) := by
  induction cs generalizing used with
  | nil => cases used <;> simp [unescapeAfter, unescape]
  | cons c cs ih =>
    cases used with
    | zero => rfl
    | succ used => simpa [unescapeAfter] using ih used

/-- A character other than a backslash stands for itself. -/
theorem unescape_cons_of_ne {c : Char} (h : c ≠ '\\') (cs : List Char) :
    unescape (c :: cs) = (unescape cs).map (c :: ·) := by
  simp [unescape, unescapeAfter, h]

/-- A backslash and what its escape takes in stand for the character that the escape denotes. -/
theorem unescape_backslash (cs : List Char) :
    unescape ('\\' :: cs) = match escape cs with
      | .error fault => .error fault
      | .ok (d, used) => (unescape (cs.drop used)).map (d :: ·) := by
  simp only [unescape, unescapeAfter, if_true]
  cases escape cs with
  | error fault => rfl
  | ok r => simp only [unescapeAfter_eq_drop]; rfl

example : unescape "\\x41é\\101".toList = .ok "AéA".toList := by rfl
example : unescape "\\ud800".toList = .error (.codePoint 0xD800) := by rfl
example : unescape "\\x4".toList = .error (.hexDigits 2 ['4']) := by rfl
example : unescape "\\477".toList = .error (.octalRange "477".toList) := by rfl
example : unescape "a\\".toList = .error .unterminated := by rfl

end StackMachine.Escape
