import StackMachine.Text.Hidden

/-!
# Text shown in messages

Messages repeat what a user typed in double quotes, so that its ends and every character of it can
be seen: quotes, backslashes and the common controls are escaped, and characters that do not show
are spelled out by number.
-/

namespace StackMachine.Text

/-- How a character is shown inside double quotes. -/
def showChar (c : Char) : List Char :=
  match c with
  | '"' => ['\\', '"']
  | '\\' => ['\\', '\\']
  | '\n' => ['\\', 'n']
  | '\r' => ['\\', 'r']
  | '\t' => ['\\', 't']
  | '\x00' => ['\\', '0']
  | c =>
    if isHidden c then ['\\', 'u', '\x7b'] ++ Nat.toDigits 16 c.toNat ++ ['\x7d'] else [c]

/-- The text in double quotes, with every character visible. -/
def shown (s : String) : String :=
  String.ofList ('"' :: (s.toList.flatMap showChar ++ ['"']))

end StackMachine.Text
