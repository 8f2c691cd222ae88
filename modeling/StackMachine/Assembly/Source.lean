import StackMachine.Assembly.Directive
import StackMachine.Assembly.Family

/-!
# Assembling a source

A source is a sequence of bytes that is read line by line. A line ends with a newline, which may
follow a carriage return; the last line may have no end. Each line is decoded when its turn comes,
so a line that is not UTF-8 is a fault only if no earlier line has one.

Comments before the first instruction form the header. Every other line that is not blank holds one
instruction.
-/

namespace StackMachine.Assembly

/-! ## Lines -/

/-- Puts a byte in front of the lines that follow it. -/
def consByte (b : UInt8) (lines : List (List UInt8)) : List (List UInt8) :=
  if b = 10 then [b] :: lines
  else
    match lines with
    | [] => [[b]]
    | l :: ls => (b :: l) :: ls

/-- The lines of a source, each with its end. -/
def lines (bytes : List UInt8) : List (List UInt8) := bytes.foldr consByte []

/-- The line without its end: a newline, and a carriage return directly before it. -/
def chomp (line : List UInt8) : List UInt8 :=
  match line.reverse with
  | 10 :: 13 :: r => r.reverse
  | 10 :: r => r.reverse
  | _ => line

/-- The text of a line, if it is UTF-8. -/
def decodeLine (line : List UInt8) : Option (List Char) :=
  (String.fromUTF8? (chomp line).toByteArray).map String.toList

/-- The lines make up the source. -/
theorem flatten_lines (bytes : List UInt8) : (lines bytes).flatten = bytes := by
  induction bytes with
  | nil => rfl
  | cons b bs ih =>
    have h : lines (b :: bs) = consByte b (lines bs) := rfl
    rw [h]
    unfold consByte
    split
    · simp [ih]
    · split
      · rename_i hl
        rw [hl] at ih
        simp [← ih]
      · rename_i l ls hl
        rw [hl] at ih
        simp [← ih]

/-! ## Instructions -/

/-- The word at the front of a line in lower case, and the text behind it. -/
def readName? (text : List Char) : Option (String × List Char) :=
  let cs := Text.skipBlanks text
  match cs.takeWhile Char.isAlpha with
  | [] => none
  | c :: cs' => some (String.ofList ((c :: cs').map Char.toLower), cs.dropWhile Char.isAlpha)

/-- Reads the one instruction of a line. The parser that claims the mnemonic says how many bytes it
took, and what stands behind them has to be the end of the line; a count that ends inside a
character or behind the line leaves nothing. -/
def readInstruction (chain : Chain) (line : Nat) (text : List Char) : Except Error Instruction :=
  match readName? text with
  | none => .error (.line line .opcodeExpected)
  | some (name, rest) =>
    match chain.parse name rest line with
    | .error e => .error e
    | .ok none => .error (.line line (.unknownOpcode name))
    | .ok (some parsed) =>
      match checkEnd ((Text.behind? rest parsed.consumed).getD []) with
      | .error fault => .error (.line line fault)
      | .ok () => .ok parsed.instruction

/-! ## Sources -/

/-- An assembled source. -/
structure Assembled where
  program : Program := #[]
  header : Header := []
  deriving DecidableEq

/-- Takes the text of one line into what is assembled so far. Comments declare parameters only as
long as there is no instruction. -/
def Assembled.addLine (chain : Chain) (line : Nat) (a : Assembled) (text : List Char) :
    Except Error Assembled :=
  match Text.skipBlanks text with
  | [] => .ok a
  | ';' :: comment =>
    if a.program.isEmpty then
      match readParameter comment with
      | .error fault => .error (.line line fault)
      | .ok none => .ok a
      | .ok (some p) => .ok { a with header := a.header ++ [p] }
    else .ok a
  | _ =>
    match readInstruction chain line text with
    | .error e => .error e
    | .ok i => .ok { a with program := a.program.push i }

/-- Takes lines into what is assembled so far; `number` is the number of the first one. -/
def Assembled.addLines (chain : Chain) (number : Nat) (a : Assembled) :
    List (List UInt8) → Except Error Assembled
  | [] => .ok a
  | line :: rest =>
    match decodeLine line with
    | none => .error (.unreadable .notText)
    | some text =>
      match a.addLine chain number text with
      | .error e => .error e
      | .ok a => addLines chain (number + 1) a rest

/-- Assembles the bytes of a source with a chain of parsers. -/
def assembleBytes (chain : Chain) (bytes : List UInt8) : Except Error Assembled :=
  Assembled.addLines chain 1 {} (lines bytes)

/-- Assembles a source with a chain of parsers. -/
def assembleWith (chain : Chain) (source : ByteArray) : Except Error Assembled :=
  assembleBytes chain source.data.toList

/-- Assembles a source with the standard chain. -/
def assemble (source : ByteArray) : Except Error Assembled := assembleWith .standard source

/-- Assembles a text with the standard chain. -/
def assembleText (s : String) : Except Error Assembled := assemble s.toUTF8

/-- The source as assembly text: directives for the parameters, then the instructions. -/
def Assembled.text (a : Assembled) : String := a.header.text ++ a.program.text

end StackMachine.Assembly
