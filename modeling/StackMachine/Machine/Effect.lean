import StackMachine.Memory
import StackMachine.Program
import StackMachine.Stack

/-!
# The effect of one instruction

An instruction works on the stack, may read memory, and asks for at most one thing beyond the stack:
a jump, the end of the run, a store or a line of output. Whoever executes it grants the request. A
failing instruction asks for nothing, and what it has taken off the stack stays off.

Integer arithmetic is on 64-bit words and wraps around; the quotient is rounded toward zero.
-/

namespace StackMachine

/-- What an instruction asks for beyond the stack. -/
inductive Request where
  /-- To go on with the next instruction. -/
  | proceed
  /-- To go on behind a label. -/
  | jump (label : Int64)
  /-- To end the run. -/
  | stop
  /-- To change a memory cell, and go on. -/
  | store (address : Int64) (slot : Slot)
  /-- To write a line, and go on. -/
  | emit (line : String)
  deriving DecidableEq

/-- What an instruction does: the stack it leaves, and its request or why it fails. -/
structure Effect where
  stack : Stack
  outcome : Except Fault Request

namespace Effect

/-- Goes on with this value on the stack. -/
def pushing (v : Value) (stack : Stack) : Effect := ⟨some v :: stack, .ok .proceed⟩

/-- Continues with what came off the stack, or fails with the stack as it is then. -/
def after (popped : Except Fault α × Stack) (next : α → Stack → Effect) : Effect :=
  match popped with
  | (.error fault, rest) => ⟨rest, .error fault⟩
  | (.ok a, rest) => next a rest

/-- Replaces two integers by a value of them; `left` was pushed first. -/
def binary (op : (left right : Int64) → Except Fault Value) (stack : Stack) : Effect :=
  after (Stack.popInts 2 stack) fun operands rest =>
    match op operands[1] operands[0] with
    | .error fault => ⟨rest, .error fault⟩
    | .ok v => pushing v rest

/-- Jumps if the integer on top passes the test. -/
def branch (test : Int64 → Bool) (label : Int64) (stack : Stack) : Effect :=
  after (Stack.popInts 1 stack) fun operands rest =>
    ⟨rest, .ok (if test operands[0] then .jump label else .proceed)⟩

end Effect

/-- The quotient rounded toward zero; the least integer divided by minus one wraps around to
itself. -/
def quotient (left right : Int64) : Except Fault Value :=
  if right = 0 then .error .divisionByZero else .ok (.int (left / right))

/-- The number of bytes of the string in UTF-8, as a word; one that is too large for a word is cut
down to the greatest one. -/
def byteLength (s : String) : Int64 := Int64.ofNat (min s.utf8ByteSize 0x7FFFFFFFFFFFFFFF)

open Effect in
/-- What an instruction does on a stack, with a memory to read from. -/
def Instruction.exec (memory : Memory) (stack : Stack) : Instruction → Effect
  | .label _ => ⟨stack, .ok .proceed⟩
  | .jump l => ⟨stack, .ok (.jump l)⟩
  | .jumpIfNonZero l => branch (· != 0) l stack
  | .jumpIfZero l => branch (· == 0) l stack
  | .stop => ⟨stack, .ok .stop⟩
  | .add => binary (fun left right => .ok (.int (left + right))) stack
  | .subtract => binary (fun left right => .ok (.int (left - right))) stack
  | .divide => binary quotient stack
  | .multiply => binary (fun left right => .ok (.int (left * right))) stack
  | .equal => after (Stack.popSlots 2 stack) fun slots rest =>
    pushing (.ofBool (slots[1] == slots[0])) rest
  | .greaterThan => binary (fun left right => .ok (.ofBool (left > right))) stack
  | .lessThan => binary (fun left right => .ok (.ofBool (left < right))) stack
  | .pushInt n => pushing (.int n) stack
  | .pushString s => pushing (.str s) stack
  | .storeMemory a => after stack.pop fun slot rest => ⟨rest, .ok (.store a slot)⟩
  | .loadMemory a => ⟨memory.load a :: stack, .ok .proceed⟩
  | .output a => ⟨stack, .ok (.emit (memory.load a).text)⟩
  | .concat => after (Stack.popStrings 2 stack) fun strings rest =>
    pushing (.str (strings[0] ++ strings[1])) rest
  | .length => after (Stack.popStrings 1 stack) fun strings rest =>
    pushing (.int (byteLength strings[0])) rest
  | .format template =>
    after (Stack.popSlots (Template.arity template.toList) stack) fun args rest =>
    match Template.render template args.toList with
    | .error fault => ⟨rest, .error (.ofTemplate template fault)⟩
    | .ok s => pushing (.str s) rest

end StackMachine
