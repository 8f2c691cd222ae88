import StackMachine.Text.Escape
import StackMachine.Value

/-!
# Faults of assembly text

What is wrong with a line, and where. Assembling stops at the first fault, so an error names one
line; a text that cannot be read to its end has no line to name.
-/

namespace StackMachine.Assembly

/-- What is wrong with a line. -/
inductive LineFault where
  /-- The line is no comment and does not begin with a word. -/
  | opcodeExpected
  /-- No instruction has this mnemonic. -/
  | unknownOpcode (name : String)
  /-- The instruction wants an integer. -/
  | integerExpected (mnemonic : String)
  /-- The instruction wants a string literal. -/
  | stringExpected (mnemonic : String)
  /-- The numeral fits no 64-bit word. -/
  | integerRange (numeral : List Char)
  /-- The string literal has a wrong escape. -/
  | escape (fault : Escape.Fault)
  /-- Something other than a comment follows the instruction. -/
  | trailing (tail : List Char)
  /-- The address of a parameter fits no 64-bit word. -/
  | addressRange (numeral : List Char)
  /-- The directive has no literal of the parameter's kind. -/
  | literalExpected (name : String) (kind : Kind)
  /-- A parser has a complaint of its own. -/
  | custom (message : String)
  deriving DecidableEq

/-- Why a text cannot be read to its end. -/
inductive ReadFault where
  /-- A line is not UTF-8. -/
  | notText
  /-- The system refuses to read on, in its own words. -/
  | system (message : String)
  deriving DecidableEq

/-- Why a text does not assemble. -/
inductive Error where
  | line (number : Nat) (fault : LineFault)
  | unreadable (cause : ReadFault)
  deriving DecidableEq

/-- The wording of a reading fault. -/
def ReadFault.message : ReadFault → String
  | notText => "stream did not contain valid UTF-8"
  | system message => message

/-- The kind of literal a parameter wants, with its article. -/
def literalName : Kind → String
  | .int => "an int literal"
  | .string => "a string literal"
  | .undefined => "no literal"

/-- The wording of a line's fault. -/
def LineFault.message : LineFault → String
  | opcodeExpected => "expected an opcode"
  | unknownOpcode name => s!"unknown opcode `{name}`"
  | integerExpected mnemonic => s!"`{mnemonic}` expects an integer argument"
  | stringExpected mnemonic => s!"`{mnemonic}` expects a quoted string argument"
  | integerRange numeral => s!"integer literal {String.ofList numeral} out of range"
  | escape fault => fault.message
  | trailing tail => s!"unexpected trailing input `{String.ofList tail}`"
  | addressRange numeral => s!"parameter address {String.ofList numeral} out of range"
  | literalExpected name kind => s!"parameter `{name}` expects {literalName kind}"
  | custom message => message

namespace Error

/-- The line that the error is about. -/
def line? : Error → Option Nat
  | line number _ => some number
  | unreadable _ => none

/-- The wording of an error. -/
def message : Error → String
  | line number (.unknownOpcode name) => s!"unknown opcode `{name}` on line {number}"
  | line number fault => s!"syntax error on line {number}: {fault.message}"
  | unreadable cause => s!"failed to read assembly: {cause.message}"

end Error

end StackMachine.Assembly
