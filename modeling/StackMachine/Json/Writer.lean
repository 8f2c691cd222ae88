import StackMachine.Json.Basic

/-!
# Writing JSON

Two layouts of one format: `compact` writes no blank at all, and `pretty` begins a line for every
item and member, two spaces deeper than what holds it. In strings only quotes, backslashes and
controls are escaped.
-/

namespace StackMachine.Json

open Numeral (hexDigit)

/-- How a character is written in a string. -/
def escapeChar (c : Char) : List Char :=
  match c with
  | '"' => ['\\', '"']
  | '\\' => ['\\', '\\']
  | '\x08' => ['\\', 'b']
  | '\x0c' => ['\\', 'f']
  | '\n' => ['\\', 'n']
  | '\r' => ['\\', 'r']
  | '\t' => ['\\', 't']
  | c =>
    if c.toNat < 0x20 then ['\\', 'u', '0', '0', hexDigit (c.toNat / 16), hexDigit c.toNat] else [c]

/-- The written form of a text. -/
def writeText (s : String) : List Char := '"' :: (s.toList.flatMap escapeChar ++ ['"'])

/-- The written form of a string; one that denotes no text has none and is written as an empty
one. -/
def writeString (text : Option String) : List Char := writeText (text.getD "")

/-- The written form of a value that holds no others. -/
def writeAtom : Json → List Char
  | .null => "null".toList
  | .bool true => "true".toList
  | .bool false => "false".toList
  | .int n => Numeral.decimal n
  | .real written => written
  | .string text => writeString text
  | .array _ => ['[', ']']
  | .object _ => ['\x7b', '\x7d']

mutual
/-- The value without blanks. -/
def compactChars : Json → List Char
  | .array items => '[' :: (compactItems items ++ [']'])
  | .object members => '\x7b' :: (compactMembers members ++ ['\x7d'])
  | atom => writeAtom atom

/-- The items with commas between them. -/
def compactItems : List Json → List Char
  | [] => []
  | [item] => compactChars item
  | item :: items => compactChars item ++ ',' :: compactItems items

/-- The members with commas between them. -/
def compactMembers : List (Option String × Json) → List Char
  | [] => []
  | [(name, value)] => writeString name ++ ':' :: compactChars value
  | (name, value) :: members =>
    writeString name ++ ':' :: compactChars value ++ ',' :: compactMembers members
end

/-- The beginning of a line at a depth. -/
def newLine (depth : Nat) : List Char := '\n' :: List.replicate (2 * depth) ' '

mutual
/-- The value with its items and members on lines of their own; `depth` is that of the line it
begins on. -/
def prettyChars (depth : Nat) : Json → List Char
  | .array (item :: items) =>
    '[' :: (prettyItems (depth + 1) (item :: items) ++ newLine depth ++ [']'])
  | .object (member :: members) =>
    '\x7b' :: (prettyMembers (depth + 1) (member :: members) ++ newLine depth ++ ['\x7d'])
  | atom => writeAtom atom

/-- The items, each on a line of its own. -/
def prettyItems (depth : Nat) : List Json → List Char
  | [] => []
  | [item] => newLine depth ++ prettyChars depth item
  | item :: items => newLine depth ++ prettyChars depth item ++ ',' :: prettyItems depth items

/-- The members, each on a line of its own. -/
def prettyMembers (depth : Nat) : List (Option String × Json) → List Char
  | [] => []
  | [(name, value)] => newLine depth ++ writeString name ++ ':' :: ' ' :: prettyChars depth value
  | (name, value) :: members =>
    newLine depth ++ writeString name ++ ':' :: ' ' :: prettyChars depth value
      ++ ',' :: prettyMembers depth members
end

/-- The value without blanks. -/
def compact (j : Json) : String := String.ofList (compactChars j)

/-- The value with its items and members on lines of their own. -/
def pretty (j : Json) : String := String.ofList (prettyChars 0 j)

end StackMachine.Json
