import StackMachine.Text.Quoted
import StackMachine.Value

/-!
# Instructions

An instruction is an opcode with the operand that the opcode wants: none, an integer or a text.
Programs are written with mnemonics; `Instruction.text` is the written form of one instruction.

`Instruction.opcode` and `Instruction.operand` take an instruction apart, and `Opcode.withOperand?`
puts it together again (`Instruction.withOperand?_operand`), so a reader or a writer of instructions
treats all opcodes of one operand alike.
-/

namespace StackMachine

/-- What the machine can do. -/
inductive Opcode where
  | label
  | jump
  | jumpIfNonZero
  | jumpIfZero
  | stop
  | add
  | subtract
  | divide
  | multiply
  | equal
  | greaterThan
  | lessThan
  | pushInt
  | pushString
  | storeMemory
  | loadMemory
  | output
  | concat
  | length
  | format
  deriving DecidableEq

/-- What stands behind an opcode. -/
inductive Operand where
  | absent
  | int (n : Int64)
  | text (s : String)
  deriving DecidableEq

/-- What an opcode wants behind it. -/
inductive OperandKind where
  | absent
  | int
  | text
  deriving DecidableEq

namespace Opcode

/-- Every opcode, in the order of the declaration. -/
def all : List Opcode :=
  [label, jump, jumpIfNonZero, jumpIfZero, stop, add, subtract, divide, multiply, equal,
    greaterThan, lessThan, pushInt, pushString, storeMemory, loadMemory, output, concat, length,
    format]

/-- The word that names the opcode in assembly text. -/
def mnemonic : Opcode → String
  | label => "lab"
  | jump => "jmp"
  | jumpIfNonZero => "jnz"
  | jumpIfZero => "jez"
  | stop => "stop"
  | add => "add"
  | subtract => "min"
  | divide => "div"
  | multiply => "mul"
  | equal => "eql"
  | greaterThan => "gtt"
  | lessThan => "ltt"
  | pushInt => "psh"
  | pushString => "str"
  | storeMemory => "stm"
  | loadMemory => "ldm"
  | output => "out"
  | concat => "cat"
  | length => "len"
  | format => "fmt"

/-- The operand that the opcode wants. -/
def operandKind : Opcode → OperandKind
  | label | jump | jumpIfNonZero | jumpIfZero | pushInt | storeMemory | loadMemory | output => .int
  | pushString | format => .text
  | stop | add | subtract | divide | multiply | equal | greaterThan | lessThan | concat | length =>
    .absent

/-- No two opcodes share a mnemonic. -/
theorem mnemonic_injective {o₁ o₂ : Opcode} (h : o₁.mnemonic = o₂.mnemonic) : o₁ = o₂ := by
  revert h
  cases o₁ <;> cases o₂ <;> decide

end Opcode

/-- An instruction of a program. -/
inductive Instruction where
  /-- A place that jumps can go to. -/
  | label (id : Int64)
  /-- Goes on behind a label. -/
  | jump (label : Int64)
  /-- Goes on behind a label if the top is not zero. -/
  | jumpIfNonZero (label : Int64)
  /-- Goes on behind a label if the top is zero. -/
  | jumpIfZero (label : Int64)
  /-- Ends the run. -/
  | stop
  /-- Adds the two integers on top. -/
  | add
  /-- Subtracts the top from the integer below it. -/
  | subtract
  /-- Divides the integer below the top by the top. -/
  | divide
  /-- Multiplies the two integers on top. -/
  | multiply
  /-- Compares the two slots on top. -/
  | equal
  /-- Tells whether the integer below the top is above the top. -/
  | greaterThan
  /-- Tells whether the integer below the top is under the top. -/
  | lessThan
  /-- Pushes an integer. -/
  | pushInt (n : Int64)
  /-- Pushes a string. -/
  | pushString (s : String)
  /-- Moves the top to a memory cell. -/
  | storeMemory (address : Int64)
  /-- Pushes a copy of a memory cell. -/
  | loadMemory (address : Int64)
  /-- Writes a memory cell out as a line. -/
  | output (address : Int64)
  /-- Joins the string on top and the one below it, in this order. -/
  | concat
  /-- Replaces a string by the number of its bytes. -/
  | length
  /-- Fills a template from the values on top. -/
  | format (template : String)
  deriving DecidableEq

/-- The instruction of this opcode and operand, if they belong together. -/
def Opcode.withOperand? : Opcode → Operand → Option Instruction
  | label, .int n => some (.label n)
  | jump, .int n => some (.jump n)
  | jumpIfNonZero, .int n => some (.jumpIfNonZero n)
  | jumpIfZero, .int n => some (.jumpIfZero n)
  | stop, .absent => some .stop
  | add, .absent => some .add
  | subtract, .absent => some .subtract
  | divide, .absent => some .divide
  | multiply, .absent => some .multiply
  | equal, .absent => some .equal
  | greaterThan, .absent => some .greaterThan
  | lessThan, .absent => some .lessThan
  | pushInt, .int n => some (.pushInt n)
  | pushString, .text s => some (.pushString s)
  | storeMemory, .int n => some (.storeMemory n)
  | loadMemory, .int n => some (.loadMemory n)
  | output, .int n => some (.output n)
  | concat, .absent => some .concat
  | length, .absent => some .length
  | format, .text s => some (.format s)
  | _, _ => none

namespace Instruction

/-- The opcode of an instruction. -/
def opcode : Instruction → Opcode
  | label _ => .label
  | jump _ => .jump
  | jumpIfNonZero _ => .jumpIfNonZero
  | jumpIfZero _ => .jumpIfZero
  | stop => .stop
  | add => .add
  | subtract => .subtract
  | divide => .divide
  | multiply => .multiply
  | equal => .equal
  | greaterThan => .greaterThan
  | lessThan => .lessThan
  | pushInt _ => .pushInt
  | pushString _ => .pushString
  | storeMemory _ => .storeMemory
  | loadMemory _ => .loadMemory
  | output _ => .output
  | concat => .concat
  | length => .length
  | format _ => .format

/-- The operand of an instruction. -/
def operand : Instruction → Operand
  | label n | jump n | jumpIfNonZero n | jumpIfZero n | pushInt n | storeMemory n | loadMemory n
  | output n => .int n
  | pushString s | format s => .text s
  | stop | add | subtract | divide | multiply | equal | greaterThan | lessThan | concat | length =>
    .absent

/-- The word that names the instruction. -/
def mnemonic (i : Instruction) : String := i.opcode.mnemonic

/-- The instruction marks the place of this label. -/
def isLabel (i : Instruction) (id : Int64) : Bool := i == .label id

/-- The written form of an instruction: its mnemonic, and its operand behind a space. -/
def text (i : Instruction) : String :=
  match i.operand with
  | .absent => i.mnemonic
  | .int n => i.mnemonic ++ " " ++ String.ofList (Numeral.decimal n.toInt)
  | .text s => i.mnemonic ++ " " ++ Quoted.quote s

/-- The instruction that pushes this value. -/
def push : Value → Instruction
  | .int n => pushInt n
  | .str s => pushString s

/-- An instruction is given by its opcode and its operand. -/
@[simp] theorem withOperand?_operand (i : Instruction) :
    i.opcode.withOperand? i.operand = some i := by
  cases i <;> rfl

end Instruction

end StackMachine
