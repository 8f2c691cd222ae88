import StackMachine.Machine.Effect

/-!
# Instructions with a control unit

Whoever runs a program hands its instructions a control unit, which they can tell to jump, to stop
and to emit a line, together with the stack and the memory to work on. `Instruction.perform` does so
one thing after the other: a failure ends the instruction where it is, and undoes nothing.
-/

namespace StackMachine

/-- A control unit with states in `σ`. A jump may be refused, and may change the state
nevertheless. -/
structure Control (σ : Type) where
  jump : Int64 → σ → Except Fault Unit × σ
  stop : σ → σ
  emit : String → σ → σ

/-- What an instruction is executed on. -/
structure Site (σ : Type) where
  unit : σ
  stack : Stack
  memory : Memory

/-- A part of an instruction: it changes the site, and gives a value or fails. -/
abbrev Doing (σ α : Type) := ExceptT Fault (StateM (Site σ)) α

namespace Doing

variable {σ α : Type}

/-- Takes values off the stack. -/
def popping (pop : Stack → Except Fault α × Stack) : Doing σ α := fun site =>
  let (values, stack) := pop site.stack
  (values, { site with stack })

/-- Pushes a slot. -/
def push (slot : Slot) : Doing σ Unit :=
  modify fun site => { site with stack := slot :: site.stack }

/-- What a memory cell holds. -/
def load (address : Int64) : Doing σ Slot := return (← get).memory.load address

/-- Changes a memory cell. -/
def store (address : Int64) (slot : Slot) : Doing σ Unit :=
  modify fun site => { site with memory := site.memory.store address slot }

/-- Has the control unit jump. -/
def jump (control : Control σ) (label : Int64) : Doing σ Unit := fun site =>
  let (result, unit) := control.jump label site.unit
  (result, { site with unit })

/-- Has the control unit stop. -/
def stop (control : Control σ) : Doing σ Unit :=
  modify fun site => { site with unit := control.stop site.unit }

/-- Has the control unit emit a line. -/
def emit (control : Control σ) (line : String) : Doing σ Unit :=
  modify fun site => { site with unit := control.emit line site.unit }

/-- Replaces two integers by a value of them; `left` was pushed first. -/
def binary (op : (left right : Int64) → Except Fault Value) : Doing σ Unit := do
  let operands ← popping (Stack.popInts 2)
  match op (operands.get 1) (operands.get 0) with
  | .error fault => throw fault
  | .ok v => push (some v)

end Doing

/-- Executes an instruction with a control unit. -/
def Instruction.perform {σ : Type} (control : Control σ) : Instruction → Doing σ Unit
  | .label _ => pure ()
  | .jump l => Doing.jump control l
  | .jumpIfNonZero l => do
    let condition ← Doing.popping (Stack.popInts 1)
    if condition.get 0 != 0 then Doing.jump control l
  | .jumpIfZero l => do
    let condition ← Doing.popping (Stack.popInts 1)
    if condition.get 0 == 0 then Doing.jump control l
  | .stop => Doing.stop control
  | .add => Doing.binary fun left right => .ok (.int (left + right))
  | .subtract => Doing.binary fun left right => .ok (.int (left - right))
  | .divide => Doing.binary quotient
  | .multiply => Doing.binary fun left right => .ok (.int (left * right))
  | .equal => do
    let right ← Doing.popping Stack.pop
    let left ← Doing.popping Stack.pop
    Doing.push (some (.ofBool (left == right)))
  | .greaterThan => Doing.binary fun left right => .ok (.ofBool (left > right))
  | .lessThan => Doing.binary fun left right => .ok (.ofBool (left < right))
  | .pushInt n => Doing.push (some (.int n))
  | .pushString s => Doing.push (some (.str s))
  | .storeMemory a => do
    let slot ← Doing.popping Stack.pop
    Doing.store a slot
  | .loadMemory a => do
    let slot ← Doing.load a
    Doing.push slot
  | .output a => do
    let slot ← Doing.load a
    Doing.emit control (Slot.text slot)
  | .concat => do
    let strings ← Doing.popping (Stack.popStrings 2)
    Doing.push (some (.str (strings.get 0 ++ strings.get 1)))
  | .length => do
    let strings ← Doing.popping (Stack.popStrings 1)
    Doing.push (some (.int (byteLength (strings.get 0))))
  | .format template => do
    let args ← Doing.popping (Stack.popSlots (Template.arity template.toList))
    match Template.render template args.toList with
    | .error fault => throw (.ofTemplate template fault)
    | .ok s => Doing.push (some (.str s))

/-- What an instruction leaves behind: whether it failed, the control unit, the stack and memory. -/
structure Aftermath (σ : Type) where
  result : Except Fault Unit
  unit : σ
  stack : Stack
  memory : Memory

namespace Control

variable {σ : Type}

/-- What an instruction leaves behind that is executed with the control unit. -/
def perform (control : Control σ) (unit : σ) (memory : Memory) (stack : Stack) (i : Instruction) :
    Aftermath σ :=
  let (result, site) := (i.perform control).run ⟨unit, stack, memory⟩
  ⟨result, site.unit, site.stack, site.memory⟩

end Control

end StackMachine
