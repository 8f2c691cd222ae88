import StackMachine.Assembly.Source
import StackMachine.Json.Reader
import StackMachine.Json.Writer

/-!
# Programs and parameters in JSON

An instruction is an object with its operation under `op` and its operand, if it has one, under
`arg`; a parameter is an object with `name`, `address` and `value`. Readers take the members in any
order, pass over those of other names, and refuse one that is repeated. They also take the values
without the names, as an array. Under `op` the operation may also stand as an object with that one
name and null; in an array it is a string.
-/

namespace StackMachine

/-- The name of an opcode in JSON. -/
def Opcode.tag : Opcode → String
  | label => "label"
  | jump => "jump"
  | jumpIfNonZero => "jump_if_non_zero"
  | jumpIfZero => "jump_if_zero"
  | stop => "stop"
  | add => "add"
  | subtract => "subtract"
  | divide => "divide"
  | multiply => "multiply"
  | equal => "equal"
  | greaterThan => "greater_than"
  | lessThan => "less_than"
  | pushInt => "push_int"
  | pushString => "push_string"
  | storeMemory => "store_memory"
  | loadMemory => "load_memory"
  | output => "output"
  | concat => "concat_string"
  | length => "string_length"
  | format => "format_string"

/-- The opcode of this name. -/
def Opcode.ofTag? (name : String) : Option Opcode := Opcode.all.find? (·.tag == name)

/-! ## Writing -/

/-- The members that hold an operand. -/
def Operand.members : Operand → List (String × Json)
  | absent => []
  | int n => [("arg", .ofWord n)]
  | text s => [("arg", .ofString s)]

/-- An instruction as an object. -/
def Instruction.toJson (i : Instruction) : Json :=
  .ofMembers (("op", .ofString i.opcode.tag) :: i.operand.members)

/-- A program as the array of its instructions. -/
def Program.toJson (p : Program) : Json := .array (p.toList.map Instruction.toJson)

/-- A value as a number or a string. -/
def Value.toJson : Value → Json
  | int n => .ofWord n
  | str s => .ofString s

/-- A parameter as an object. -/
def Parameter.toJson (p : Parameter) : Json :=
  .ofMembers [("name", .ofString p.name), ("address", .ofWord p.address), ("value", p.value.toJson)]

/-- A header as the array of its parameters. -/
def Header.toJson (h : Header) : Json := .array (h.map Parameter.toJson)

/-- An assembled source as one object. -/
def Assembly.Assembled.toJson (a : Assembled) : Json :=
  .ofMembers [("params", a.header.toJson), ("program", a.program.toJson)]

/-! ## Reading -/

/-- The name that stands for an opcode under `op`: a string, or an object with that one name and
null. -/
def Json.tag? : Json → Option String
  | .string text => text
  | .object [(name, .null)] => name
  | _ => none

/-- The operand that is written with an opcode; `none` is an operand that is not there. -/
def Opcode.readOperand? (o : Opcode) (arg : Option Json) : Option Operand :=
  match o.operandKind, arg with
  | .absent, none => some .absent
  | .absent, some .null => some .absent
  | .int, some j => j.word?.map .int
  | .text, some j => j.text?.map .text
  | _, _ => none

/-- The instruction of an operation's name and an operand. -/
def Instruction.ofParts? (name : String) (arg : Option Json) : Option Instruction := do
  let o ← Opcode.ofTag? name
  o.withOperand? (← o.readOperand? arg)

/-- The instruction that a value denotes. -/
def Instruction.ofJson? : Json → Option Instruction
  | .array [op, arg] => op.text?.bind (ofParts? · (some arg))
  | .object members =>
    if members.all (·.1.isSome) then
      match Json.valuesOf members "op", Json.valuesOf members "arg" with
      | [op], [] => op.tag?.bind (ofParts? · none)
      | [op], [arg] => op.tag?.bind (ofParts? · (some arg))
      | _, _ => none
    else none
  | _ => none

/-- The program that a value denotes. -/
def Program.ofJson? : Json → Option Program
  | .array items => (items.mapM Instruction.ofJson?).map List.toArray
  | _ => none

/-- The value that a number or a string denotes. -/
def Value.ofJson? : Json → Option Value
  | .int n => (Numeral.word? n).map .int
  | .string text => text.map .str
  | _ => none

/-- The parameter of a name, an address and a value. -/
def Parameter.ofParts? (name address value : Json) : Option Parameter := do
  return { name := ← name.text?, address := ← address.word?, value := ← Value.ofJson? value }

/-- The parameter that a value denotes. -/
def Parameter.ofJson? : Json → Option Parameter
  | .array [name, address, value] => ofParts? name address value
  | .object members =>
    if members.all (·.1.isSome) then
      match Json.valuesOf members "name", Json.valuesOf members "address",
        Json.valuesOf members "value" with
      | [name], [address], [value] => ofParts? name address value
      | _, _, _ => none
    else none
  | _ => none

/-- The header that a value denotes. -/
def Header.ofJson? : Json → Option Header
  | .array items => items.mapM Parameter.ofJson?
  | _ => none

/-- The program that a JSON text denotes. -/
def Program.parseJson? (s : String) : Option Program := (Json.parse? s).bind Program.ofJson?

/-- The header that a JSON text denotes. -/
def Header.parseJson? (s : String) : Option Header := (Json.parse? s).bind Header.ofJson?

end StackMachine
