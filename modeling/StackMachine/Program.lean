import StackMachine.Instruction

/-!
# Programs

A program is an array of instructions. A jump names a label by its id and means the first label of
the program that has it.
-/

namespace StackMachine

/-- The instructions of a program, in order. -/
abbrev Program := Array Instruction

namespace Program

/-- The index of the first label with this id. -/
def findLabel (p : Program) (id : Int64) : Option Nat := p.findIdx? (·.isLabel id)

/-- The program with another one run before it. -/
def withPrelude (p prelude : Program) : Program := prelude ++ p

/-- The program as assembly text, one instruction a line. -/
def text (p : Program) : String :=
  String.join (p.toList.map fun i => i.text ++ "\n")

end Program

end StackMachine
