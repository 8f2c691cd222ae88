import StackMachine.Assembly.Operand
import StackMachine.Instruction

/-!
# Parsers of mnemonics

An assembler asks a chain of parsers for the instruction of a line. A parser that does not know the
mnemonic declines it, and the next one is asked; the first that claims it decides. Anyone may write
a parser. The mnemonics of the machine fall into five families, each with a parser of its own, and
together these are the standard chain.
-/

namespace StackMachine.Assembly

/-- An instruction as a parser has read it: `consumed` is the number of bytes that it took of the
text behind the mnemonic. -/
structure Parsed where
  instruction : Instruction
  consumed : Nat
  deriving DecidableEq

/-- One link of a chain. It is given the mnemonic in small letters, the text behind it and the
number of the line, and declines the mnemonic or claims it. -/
structure Parser where
  /-- The name of the mnemonics that it knows. -/
  family : String
  parse : (name : String) → (rest : List Char) → (line : Nat) → Except Error (Option Parsed)

/-- The parsers of an assembler, in the order in which they are asked. -/
abbrev Chain := List Parser

/-- Asks the parsers in turn. -/
def Chain.parse : Chain → String → List Char → Nat → Except Error (Option Parsed)
  | [], _, _, _ => .ok none
  | parser :: parsers, name, rest, line =>
    match parser.parse name rest line with
    | .error e => .error e
    | .ok (some parsed) => .ok (some parsed)
    | .ok none => Chain.parse parsers name rest line

/-! ## Families -/

/-- How an instruction is made of what stands behind its mnemonic. -/
inductive Form where
  /-- Nothing is wanted. -/
  | bare (i : Instruction)
  /-- An integer is wanted. -/
  | withInt (build : Int64 → Instruction)
  /-- A string literal is wanted. -/
  | withString (build : String → Instruction)

/-- Reads what a mnemonic wants behind it. -/
def Form.read (form : Form) (name : String) (rest : List Char) : Except LineFault Parsed :=
  match form with
  | bare i => .ok ⟨i, 0⟩
  | withInt build =>
    match readInt rest with
    | .error fault => .error fault
    | .ok (some (n, consumed)) => .ok ⟨build n, consumed⟩
    | .ok none => .error (.integerExpected name)
  | withString build =>
    match readString rest with
    | .error fault => .error fault
    | .ok (some (s, consumed)) => .ok ⟨build s, consumed⟩
    | .ok none => .error (.stringExpected name)

/-- A family of mnemonics. -/
inductive Family where
  | control
  | arith
  | logic
  | data
  | string
  deriving DecidableEq

namespace Family

/-- Every family, in the order of the standard chain. -/
def all : List Family := [control, arith, logic, data, string]

/-- The name of a family. -/
def name : Family → String
  | control => "control"
  | arith => "arith"
  | logic => "logic"
  | data => "data"
  | string => "string"

/-- The mnemonics of a family, and what each of them wants. -/
def form? (f : Family) (name : String) : Option Form :=
  match f with
  | control =>
    match name with
    | "lab" => some (.withInt .label)
    | "jmp" => some (.withInt .jump)
    | "jnz" => some (.withInt .jumpIfNonZero)
    | "jez" => some (.withInt .jumpIfZero)
    | "stop" => some (.bare .stop)
    | _ => none
  | arith =>
    match name with
    | "add" => some (.bare .add)
    | "min" => some (.bare .subtract)
    | "div" => some (.bare .divide)
    | "mul" => some (.bare .multiply)
    | _ => none
  | logic =>
    match name with
    | "eql" => some (.bare .equal)
    | "gtt" => some (.bare .greaterThan)
    | "ltt" => some (.bare .lessThan)
    | _ => none
  | data =>
    match name with
    | "psh" => some (.withInt .pushInt)
    | "str" => some (.withString .pushString)
    | "stm" => some (.withInt .storeMemory)
    | "ldm" => some (.withInt .loadMemory)
    | "out" => some (.withInt .output)
    | _ => none
  | string =>
    match name with
    | "cat" => some (.bare .concat)
    | "len" => some (.bare .length)
    | "fmt" => some (.withString .format)
    | _ => none

/-- Reads what stands behind a mnemonic of the family, and declines any other name. -/
def read (f : Family) (name : String) (rest : List Char) : Except LineFault (Option Parsed) :=
  match f.form? name with
  | none => .ok none
  | some form => (form.read name rest).map some

/-- The parser of a family. -/
def parser (f : Family) : Parser where
  family := f.name
  parse name rest line := (f.read name rest).mapError (.line line)

end Family

/-- The chain of these families. -/
def Chain.ofFamilies (families : List Family) : Chain := families.map Family.parser

/-- The standard chain. -/
def Chain.standard : Chain := .ofFamilies Family.all

end StackMachine.Assembly
