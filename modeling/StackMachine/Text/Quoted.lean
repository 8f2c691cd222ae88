import StackMachine.Text.Escape
import StackMachine.Text.Numeral

/-!
# Quoted literals

A string literal is written in double quotes on one line: `quote` escapes what a reader of lines
would misread, and leaves all other characters as they are. `scan` finds the end of a literal
without decoding it: the first double quote that no backslash precedes. The body it returns is then
decoded by `Escape.unescape`.
-/

namespace StackMachine.Quoted

open Numeral (hexDigit)

/-- How a character is written inside a literal. -/
def quoteChar (c : Char) : List Char :=
  if c = '"' then ['\\', '"']
  else if c = '\\' then ['\\', '\\']
  else if c = '\n' then ['\\', 'n']
  else if c = '\r' then ['\\', 'r']
  else if c = '\t' then ['\\', 't']
  else if c.toNat < 0x20 ∨ c.toNat = 0x7F then
    ['\\', 'x', hexDigit (c.toNat / 16), hexDigit c.toNat]
  else [c]

/-- The body of the literal that denotes the text. -/
def quoteBody (cs : List Char) : List Char := cs.flatMap quoteChar

/-- The literal that denotes the text, with its quotes. -/
def quoteChars (cs : List Char) : List Char := '"' :: (quoteBody cs ++ ['"'])

/-- The literal that denotes the string. -/
def quote (s : String) : String := String.ofList (quoteChars s.toList)

/-- Scans a literal behind its opening quote: its body, and the text behind its closing quote. A
backslash takes the next character in, unless that one ends the line. -/
def scan : List Char → Option (List Char × List Char)
  | [] => none
  | '"' :: cs => some ([], cs)
  | '\\' :: c :: cs =>
    if c = '\n' then none
    else (scan cs).map fun (body, rest) => ('\\' :: c :: body, rest)
  | '\\' :: [] => none
  | c :: cs => (scan cs).map fun (body, rest) => (c :: body, rest)

/-- The string that a literal's body denotes. -/
def unquote (body : String) : Except Escape.Fault String :=
  (Escape.unescape body.toList).map String.ofList

/-- The body, the closing quote and the rest make up the text. -/
theorem append_eq_of_scan {cs body rest : List Char} (h : scan cs = some (body, rest)) :
    body ++ '"' :: rest = cs := by
  fun_induction scan cs generalizing body rest with
  | case1 => simp at h
  | case2 cs =>
    simp only [Option.some.injEq, Prod.mk.injEq] at h
    simp [← h.1, ← h.2]
  | case3 => simp at h
  | case4 c cs _ ih =>
    obtain ⟨⟨b, r⟩, hr, he⟩ := Option.map_eq_some_iff.1 h
    simp only [Prod.mk.injEq] at he
    rw [← he.1, ← he.2]
    simp [ih hr]
  | case5 => simp at h
  | case6 c cs _ _ _ ih =>
    obtain ⟨⟨b, r⟩, hr, he⟩ := Option.map_eq_some_iff.1 h
    simp only [Prod.mk.injEq] at he
    rw [← he.1, ← he.2]
    simp [ih hr]

example : quote "a\"\\\n\x01é" = "\"a\\\"\\\\\\n\\x01é\"" := by decide
example : scan "a\\\"b\" c".toList = some ("a\\\"b".toList, " c".toList) := by rfl
example : scan "a\\\n\"".toList = none := by rfl

end StackMachine.Quoted
