import StackMachine.Json.Basic
import StackMachine.Text.Escape

/-!
# Reading JSON

`parse?` reads a whole text as one value with blanks around it. The readers below it take the text
from the left and return what is left; the one for values recurses on a bound of the nesting, which
the length of the text always suffices for.

A string is read in two passes: `scanUnits` takes it in as a list of units without a look at what
their numbers mean, and `textOfUnits?` joins the halves of surrogate pairs. Only the second one can
fail on a string that is well formed as JSON.
-/

namespace StackMachine.Json

/-- The blanks of JSON. -/
def isSpace (c : Char) : Bool := c == ' ' || c == '\n' || c == '\r' || c == '\t'

/-- The text from its first character that is no blank. -/
def skipSpace (cs : List Char) : List Char := cs.dropWhile isSpace

/-! ## Strings -/

/-- A unit of a string: a character, or the number of an escape by number. -/
inductive CodeUnit where
  | char (c : Char)
  | code (n : Nat)
  deriving DecidableEq

/-- The number that four hexadecimal digits denote. -/
def hex4? (a b c d : Char) : Option Nat :=
  if [a, b, c, d].all (Escape.isDigitOf 16) then some (Escape.valueOf 16 [a, b, c, d]) else none

/-- The escapes of one letter. -/
def simple? : Char → Option Char
  | '"' => some '"'
  | '\\' => some '\\'
  | '/' => some '/'
  | 'b' => some '\x08'
  | 'f' => some '\x0c'
  | 'n' => some '\n'
  | 'r' => some '\r'
  | 't' => some '\t'
  | _ => none

/-- Scans a string behind its opening quote: its units, and the text behind its closing quote. -/
def scanUnits : List Char → Option (List CodeUnit × List Char)
  | [] => none
  | '"' :: cs => some ([], cs)
  | '\\' :: 'u' :: a :: b :: c :: d :: cs =>
    match hex4? a b c d, scanUnits cs with
    | some n, some (us, rest) => some (.code n :: us, rest)
    | _, _ => none
  | '\\' :: name :: cs =>
    match simple? name, scanUnits cs with
    | some c, some (us, rest) => some (.char c :: us, rest)
    | _, _ => none
  | c :: cs =>
    if c = '\\' ∨ c.toNat < 0x20 then none
    else (scanUnits cs).map fun (us, rest) => (.char c :: us, rest)

/-- The number is that of a first half of a surrogate pair. -/
def isHighHalf (n : Nat) : Bool := 0xD800 ≤ n && n < 0xDC00

/-- The number is that of a second half of a surrogate pair. -/
def isLowHalf (n : Nat) : Bool := 0xDC00 ≤ n && n < 0xE000

/-- The character that two halves of a surrogate pair name. -/
def joinHalves (high low : Nat) : Char :=
  Char.ofNat (0x10000 + (high - 0xD800) * 0x400 + (low - 0xDC00))

/-- The text that units denote: every first half is followed by a second half, and none stands
alone. -/
def textOfUnits? : List CodeUnit → Option (List Char)
  | [] => some []
  | .char c :: us => (textOfUnits? us).map (c :: ·)
  | .code n :: .code m :: us =>
    if isHighHalf n then
      if isLowHalf m then (textOfUnits? us).map (joinHalves n m :: ·) else none
    else if isLowHalf n then none
    else (textOfUnits? (.code m :: us)).map (Char.ofNat n :: ·)
  | .code n :: us =>
    if isHighHalf n || isLowHalf n then none else (textOfUnits? us).map (Char.ofNat n :: ·)

/-- Reads a string behind its opening quote. -/
def readString (cs : List Char) : Option (Option String × List Char) :=
  (scanUnits cs).map fun (us, rest) => ((textOfUnits? us).map String.ofList, rest)

/-! ## Numbers -/

/-- One or more digits at the front. -/
def readDigits (cs : List Char) : Option (List Char × List Char) :=
  match cs.takeWhile Char.isDigit with
  | [] => none
  | d :: ds => some (d :: ds, cs.dropWhile Char.isDigit)

/-- The digits of a number before its fraction: a zero, or digits that begin with another one. -/
def readWhole (cs : List Char) : Option (List Char × List Char) :=
  match cs with
  | '0' :: rest => some (['0'], rest)
  | _ => readDigits cs

/-- The fraction of a number, if there is one. -/
def readFraction (cs : List Char) : Option (List Char × List Char) :=
  match cs with
  | '.' :: rest => (readDigits rest).map fun (ds, rest) => ('.' :: ds, rest)
  | _ => some ([], cs)

/-- The sign of an exponent, if there is one. -/
def splitExponentSign : List Char → List Char × List Char
  | '+' :: cs => (['+'], cs)
  | '-' :: cs => (['-'], cs)
  | cs => ([], cs)

/-- The exponent of a number, if there is one. -/
def readExponent (cs : List Char) : Option (List Char × List Char) :=
  match cs with
  | [] => some ([], cs)
  | e :: rest =>
    if e = 'e' ∨ e = 'E' then
      (readDigits (splitExponentSign rest).2).map fun (ds, tail) =>
        (e :: (splitExponentSign rest).1 ++ ds, tail)
    else some ([], cs)

/-- Reads a number. -/
def readNumber (cs : List Char) : Option (Json × List Char) :=
  match readWhole (Numeral.splitSign cs).2 with
  | none => none
  | some (whole, rest) =>
    match readFraction rest with
    | none => none
    | some (fraction, rest) =>
      match readExponent rest with
      | none => none
      | some (exponent, rest) =>
        let numeral := (Numeral.splitSign cs).1 ++ whole
        if fraction = [] ∧ exponent = [] ∧ numeral ≠ ['-', '0'] then
          some (.int (Numeral.denote numeral), rest)
        else some (.real (numeral ++ fraction ++ exponent), rest)

/-! ## Values -/

mutual
/-- Reads a value, with blanks before it allowed. -/
def readValue : Nat → List Char → Option (Json × List Char)
  | 0, _ => none
  | fuel + 1, cs =>
    match skipSpace cs with
    | '"' :: cs => (readString cs).map fun (text, rest) => (.string text, rest)
    | '[' :: cs =>
      match skipSpace cs with
      | ']' :: rest => some (.array [], rest)
      | cs => (readItems fuel cs).map fun (items, rest) => (.array items, rest)
    | '\x7b' :: cs =>
      match skipSpace cs with
      | '\x7d' :: rest => some (.object [], rest)
      | cs => (readMembers fuel cs).map fun (members, rest) => (.object members, rest)
    | 'n' :: 'u' :: 'l' :: 'l' :: rest => some (.null, rest)
    | 't' :: 'r' :: 'u' :: 'e' :: rest => some (.bool true, rest)
    | 'f' :: 'a' :: 'l' :: 's' :: 'e' :: rest => some (.bool false, rest)
    | cs => readNumber cs

/-- Reads the items of an array up to its closing bracket. -/
def readItems : Nat → List Char → Option (List Json × List Char)
  | 0, _ => none
  | fuel + 1, cs =>
    match readValue fuel cs with
    | none => none
    | some (item, rest) =>
      match skipSpace rest with
      | ',' :: rest => (readItems fuel rest).map fun (items, rest) => (item :: items, rest)
      | ']' :: rest => some ([item], rest)
      | _ => none

/-- Reads the members of an object up to its closing brace. -/
def readMembers : Nat → List Char → Option (List (Option String × Json) × List Char)
  | 0, _ => none
  | fuel + 1, cs =>
    match skipSpace cs with
    | '"' :: cs =>
      match readString cs with
      | none => none
      | some (name, rest) =>
        match skipSpace rest with
        | ':' :: rest =>
          match readValue fuel rest with
          | none => none
          | some (value, rest) =>
            match skipSpace rest with
            | ',' :: rest =>
              (readMembers fuel rest).map fun (members, rest) => ((name, value) :: members, rest)
            | '\x7d' :: rest => some ([(name, value)], rest)
            | _ => none
        | _ => none
    | _ => none
end

/-- The value that a text denotes, with blanks around it allowed and nothing else. -/
def parseChars? (cs : List Char) : Option Json :=
  match readValue (2 * cs.length + 2) cs with
  | some (value, rest) => if skipSpace rest = [] then some value else none
  | none => none

/-- The value that a text denotes. -/
def parse? (s : String) : Option Json := parseChars? s.toList

end StackMachine.Json
