import StackMachine.Fault

/-!
# The stack

A stack is the list of its slots, the top first. Taking values off never puts one back: where a
value is missing or of the wrong kind, those above it are gone, and so is the wrong one. `popEach`
takes a fixed number of values off and hands them over with the top at index zero; `drain` takes
values off for as long as a visitor asks for more.
-/

namespace StackMachine

/-- The slots of a stack, the top first. -/
abbrev Stack := List Slot

namespace Stack

/-- The top of the stack and the stack below it. -/
def pop : Stack → Except Fault Slot × Stack
  | [] => (.error .stackUnderflow, [])
  | slot :: rest => (.ok slot, rest)

/-- The top of the stack. -/
def peek : Stack → Except Fault Slot
  | [] => .error .stackUnderflow
  | slot :: _ => .ok slot

/-- The slot as an integer. -/
def asInt : Slot → Except Fault Int64
  | some (.int n) => .ok n
  | slot => .error (.typeMismatch .int (Slot.kind slot))

/-- The slot as a string. -/
def asString : Slot → Except Fault String
  | some (.str s) => .ok s
  | slot => .error (.typeMismatch .string (Slot.kind slot))

/-- Takes `n` values off the stack, each one accepted or refused as it comes off; the top has index
zero. -/
def popEach (accept : Slot → Except Fault α) :
    (n : Nat) → Stack → Except Fault (Vector α n) × Stack
  | 0, stack => (.ok #v[], stack)
  | n + 1, stack =>
    match popEach accept n stack with
    | (.error fault, rest) => (.error fault, rest)
    | (.ok _, []) => (.error .stackUnderflow, [])
    | (.ok values, slot :: rest) => ((accept slot).map values.push, rest)

/-- Takes `n` integers off the stack. -/
def popInts (n : Nat) (stack : Stack) : Except Fault (Vector Int64 n) × Stack :=
  popEach asInt n stack

/-- Takes `n` strings off the stack. -/
def popStrings (n : Nat) (stack : Stack) : Except Fault (Vector String n) × Stack :=
  popEach asString n stack

/-- Takes `n` slots off the stack, whatever they hold. -/
def popSlots (n : Nat) (stack : Stack) : Except Fault (Vector Slot n) × Stack :=
  popEach .ok n stack

/-! ## Draining -/

/-- What a visitor says of a value that has come off the stack. -/
inductive Verdict where
  /-- Another value is wanted. -/
  | more
  /-- No further value is wanted. -/
  | enough
  /-- The value is refused. -/
  | refuse (fault : Fault)

/-- What draining leaves: the visitor's state, the stack, and whether the visitor had enough. -/
structure Drained (σ : Type) where
  state : σ
  rest : Stack
  outcome : Except Fault Unit

/-- Takes values off the stack and shows each to the visitor with its ordinal, until the visitor has
enough or refuses one. A stack that runs out is an underflow. -/
def drainFrom (visit : σ → Nat → Slot → σ × Verdict) (state : σ) (ordinal : Nat) :
    Stack → Drained σ
  | [] => ⟨state, [], .error .stackUnderflow⟩
  | slot :: rest =>
    match visit state ordinal slot with
    | (state, .more) => drainFrom visit state (ordinal + 1) rest
    | (state, .enough) => ⟨state, rest, .ok ()⟩
    | (state, .refuse fault) => ⟨state, rest, .error fault⟩

/-- Drains the stack from its top, which has ordinal one. -/
def drain (visit : σ → Nat → Slot → σ × Verdict) (state : σ) (stack : Stack) : Drained σ :=
  drainFrom visit state 1 stack

example : popInts 2 [some (.int 1), some (.int 2), none] = (.ok #v[1, 2], [none]) := by rfl
example : popInts 2 [some (.int 1), none, none] =
    (.error (.typeMismatch .int .undefined), [none]) := by rfl

end Stack

end StackMachine
