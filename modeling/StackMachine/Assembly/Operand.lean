import StackMachine.Assembly.Error
import StackMachine.Text.Blank
import StackMachine.Text.Bytes
import StackMachine.Text.Numeral
import StackMachine.Text.Quoted

/-!
# Operands in assembly text

An operand stands behind its mnemonic, blanks between them or not. The readers here take the text
behind the mnemonic and return what they have read with the number of bytes that they took, blanks
included, or `none` where no literal of their kind begins. A literal that begins but denotes nothing
is a fault.
-/

namespace StackMachine.Assembly

/-- Reads an integer: the longest numeral behind the blanks. -/
def readInt (rest : List Char) : Except LineFault (Option (Int64 × Nat)) :=
  match Numeral.scan (Text.skipBlanks rest) with
  | none => .ok none
  | some (numeral, _) =>
    match Numeral.word? (Numeral.denote numeral) with
    | some n => .ok (some (n, Text.utf8Length (rest.takeWhile Text.isBlank ++ numeral)))
    | none => .error (.integerRange numeral)

/-- Reads a string literal behind the blanks. -/
def readString (rest : List Char) : Except LineFault (Option (String × Nat)) :=
  match Text.skipBlanks rest with
  | '"' :: cs =>
    match Quoted.scan cs with
    | none => .ok none
    | some (body, _) =>
      match Escape.unescape body with
      | .ok s =>
        let literal := '"' :: (body ++ ['"'])
        .ok (some (String.ofList s, Text.utf8Length (rest.takeWhile Text.isBlank ++ literal)))
      | .error fault => .error (.escape fault)
  | _ => .ok none

/-- Behind an instruction stand blanks and perhaps a comment. -/
def checkEnd (rest : List Char) : Except LineFault Unit :=
  match Text.skipBlanks rest with
  | [] => .ok ()
  | ';' :: _ => .ok ()
  | tail => .error (.trailing tail)

example : (readInt "  -12 ; x".toList).toOption = some (some (-12, 5)) := by decide +kernel
example : (readString " \"a\\\"é\\n\" rest".toList).toOption = some (some ("a\"é\n", 10)) := by
  decide +kernel

end StackMachine.Assembly
