import StackMachine.Machine.Effect
import StackMachine.Proofs.Popping

/-!
# What an instruction can fail with and ask for

An instruction fails because the stack does not hold its operands (`Fault.IsOperand`), because a
divisor is zero or because a template has a wrong placeholder. `Instruction.exec_error_cases` says
so and names the instruction behind each of the latter two; so no instruction reports an unresolved
label or a step limit by itself. An instruction that succeeds goes on, unless it is one of those
that ask for something else, and then its operand says for what (`Instruction.exec_ok_cases`).
-/

namespace StackMachine

/-- The stack does not hold the operands that an instruction wants. -/
def Fault.IsOperand (fault : Fault) : Prop :=
  fault = .stackUnderflow ∨ ∃ expected found, fault = .typeMismatch expected found

namespace Stack

/-- Popping fails on an empty stack or on a value that is refused. -/
theorem popEach_error {accept : Slot → Except Fault α} {n : Nat} {stack : Stack} {fault : Fault}
    (h : (popEach accept n stack).1 = .error fault) :
    fault = .stackUnderflow ∨ ∃ slot, accept slot = .error fault := by
  obtain ⟨_, _, _, -, -, hpop⟩ | ⟨_, _, slot, _, _, -, -, -, hslot, hpop⟩ | ⟨_, -, -, hpop⟩ :=
    popEach_cases accept n stack
  · rw [hpop] at h
    cases h
  · rw [hpop] at h
    cases h
    exact .inr ⟨slot, hslot⟩
  · rw [hpop] at h
    cases h
    exact .inl rfl

/-- What is not taken for an integer is an operand fault. -/
theorem isOperand_of_asInt {slot : Slot} {fault : Fault} (h : asInt slot = .error fault) :
    fault.IsOperand :=
  .inr ⟨_, _, (selects_asInt.error h).2⟩

/-- What is not taken for a string is an operand fault. -/
theorem isOperand_of_asString {slot : Slot} {fault : Fault} (h : asString slot = .error fault) :
    fault.IsOperand :=
  .inr ⟨_, _, (selects_asString.error h).2⟩

/-- Where values are refused for their kind only, popping fails for its operands only. -/
theorem isOperand_of_popEach {accept : Slot → Except Fault α} {n : Nat} {stack : Stack}
    {fault : Fault} (haccept : ∀ {slot : Slot}, accept slot = .error fault → fault.IsOperand)
    (h : (popEach accept n stack).1 = .error fault) : fault.IsOperand := by
  obtain hempty | ⟨slot, hslot⟩ := popEach_error h
  · exact .inl hempty
  · exact haccept hslot

/-- Any slot is accepted, so only an empty stack fails. -/
theorem isOperand_of_popSlots {n : Nat} {stack : Stack} {fault : Fault}
    (h : (popSlots n stack).1 = .error fault) : fault.IsOperand := by
  obtain hempty | ⟨slot, hslot⟩ := popEach_error h
  · exact .inl hempty
  · cases hslot

end Stack

namespace Effect

/-- An effect that starts with popping fails there or afterwards. -/
theorem after_error {popped : Except Fault α × Stack} {next : α → Stack → Effect} {fault : Fault}
    (h : (after popped next).outcome = .error fault) :
    popped.1 = .error fault ∨ ∃ a, popped.1 = .ok a ∧ (next a popped.2).outcome = .error fault := by
  obtain ⟨values, rest⟩ := popped
  cases values with
  | error early =>
    cases h
    exact .inl rfl
  | ok a => exact .inr ⟨a, rfl, h⟩

/-- An effect that starts with popping asks for what it asks for afterwards. -/
theorem after_ok {popped : Except Fault α × Stack} {next : α → Stack → Effect} {request : Request}
    (h : (after popped next).outcome = .ok request) :
    ∃ a, popped.1 = .ok a ∧ (next a popped.2).outcome = .ok request := by
  obtain ⟨values, rest⟩ := popped
  cases values with
  | error early => cases h
  | ok a => exact ⟨a, rfl, h⟩

/-- An operation on two integers that succeeds just proceeds. -/
theorem binary_ok {op : Int64 → Int64 → Except Fault Value} {stack : Stack} {request : Request}
    (h : (binary op stack).outcome = .ok request) : request = .proceed := by
  obtain ⟨operands, -, hop⟩ := after_ok h
  split at hop
  · cases hop
  · cases hop
    rfl

/-- A conditional jump asks for its jump or goes on. -/
theorem branch_ok {test : Int64 → Bool} {label : Int64} {stack : Stack} {request : Request}
    (h : (branch test label stack).outcome = .ok request) :
    request = .proceed ∨ request = .jump label := by
  obtain ⟨operands, -, hjump⟩ := after_ok h
  dsimp only at hjump
  split at hjump
  · exact .inr (Except.ok.inj hjump).symm
  · exact .inl (Except.ok.inj hjump).symm

/-- An operation on two integers fails for its operands or by itself. -/
theorem binary_error {op : Int64 → Int64 → Except Fault Value} {stack : Stack} {fault : Fault}
    (h : (binary op stack).outcome = .error fault) :
    fault.IsOperand ∨ ∃ left right, op left right = .error fault := by
  obtain hpop | ⟨operands, -, hop⟩ := after_error h
  · exact .inl (Stack.isOperand_of_popEach Stack.isOperand_of_asInt hpop)
  · split at hop
    · rename_i refusal hrefusal
      cases hop
      exact .inr ⟨_, _, hrefusal⟩
    · cases hop

/-- A conditional jump fails for its operand only. -/
theorem branch_error {test : Int64 → Bool} {label : Int64} {stack : Stack} {fault : Fault}
    (h : (branch test label stack).outcome = .error fault) : fault.IsOperand := by
  obtain hpop | ⟨operands, -, hjump⟩ := after_error h
  · exact Stack.isOperand_of_popEach Stack.isOperand_of_asInt hpop
  · cases hjump

end Effect

/-- A quotient fails for a divisor of zero only. -/
theorem quotient_error {left right : Int64} {fault : Fault}
    (h : quotient left right = .error fault) : fault = .divisionByZero := by
  unfold quotient at h
  split at h
  · cases h
    rfl
  · cases h

/-- Every way in which an instruction fails. The operations that cannot fail by themselves share one
argument. -/
theorem Instruction.exec_error_cases {i : Instruction} {memory : Memory} {stack : Stack}
    {fault : Fault} (h : (i.exec memory stack).outcome = .error fault) :
    fault.IsOperand ∨ (i = .divide ∧ fault = .divisionByZero) ∨
      ∃ template reason, i = .format template ∧ fault = .invalidFormat template reason := by
  have total {op : Int64 → Int64 → Value}
      (h : (Effect.binary (fun left right => .ok (op left right)) stack).outcome = .error fault) :
      fault.IsOperand := by
    obtain hop | ⟨_, _, hop⟩ := Effect.binary_error h
    · exact hop
    · cases hop
  cases i with
  | label _ => cases h
  | jump _ => cases h
  | jumpIfNonZero _ => exact .inl (Effect.branch_error h)
  | jumpIfZero _ => exact .inl (Effect.branch_error h)
  | stop => cases h
  | add => exact .inl (total h)
  | subtract => exact .inl (total h)
  | divide =>
    obtain hop | ⟨left, right, hop⟩ := Effect.binary_error h
    · exact .inl hop
    · exact .inr (.inl ⟨rfl, quotient_error hop⟩)
  | multiply => exact .inl (total h)
  | equal =>
    obtain hpop | ⟨slots, -, hpush⟩ := Effect.after_error h
    · exact .inl (Stack.isOperand_of_popSlots hpop)
    · cases hpush
  | greaterThan => exact .inl (total h)
  | lessThan => exact .inl (total h)
  | pushInt _ => cases h
  | pushString _ => cases h
  | storeMemory _ =>
    obtain hpop | ⟨slot, -, hstore⟩ := Effect.after_error h
    · cases stack with
      | nil =>
        cases hpop
        exact .inl (.inl rfl)
      | cons slot rest => cases hpop
    · cases hstore
  | loadMemory _ => cases h
  | output _ => cases h
  | concat =>
    obtain hpop | ⟨strings, -, hpush⟩ := Effect.after_error h
    · exact .inl (Stack.isOperand_of_popEach Stack.isOperand_of_asString hpop)
    · cases hpush
  | length =>
    obtain hpop | ⟨strings, -, hpush⟩ := Effect.after_error h
    · exact .inl (Stack.isOperand_of_popEach Stack.isOperand_of_asString hpop)
    · cases hpush
  | format template =>
    obtain hpop | ⟨args, -, hrender⟩ := Effect.after_error h
    · exact .inl (Stack.isOperand_of_popSlots hpop)
    · split at hrender
      · rename_i refusal _
        cases refusal with
        | malformed reason =>
          cases hrender
          exact .inr (.inr ⟨template, reason, rfl, rfl⟩)
        | mismatch expected found =>
          cases hrender
          exact .inl (.inr ⟨expected, found, rfl⟩)
      · cases hrender

/-- The label that an instruction jumps to, if it does. -/
def Instruction.jumpLabel? : Instruction → Option Int64
  | jump l | jumpIfNonZero l | jumpIfZero l => some l
  | _ => none

/-- Everything that an instruction can ask for. -/
theorem Instruction.exec_ok_cases {i : Instruction} {memory : Memory} {stack : Stack}
    {request : Request} (h : (i.exec memory stack).outcome = .ok request) :
    request = .proceed ∨ (∃ l, i.jumpLabel? = some l ∧ request = .jump l) ∨
      (i = .stop ∧ request = .stop) ∨ (∃ a slot, i = .storeMemory a ∧ request = .store a slot) ∨
      ∃ a, i = .output a ∧ request = .emit (memory.load a).text := by
  cases i with
  | label _ | pushInt _ | pushString _ | loadMemory _ =>
    cases h
    exact .inl rfl
  | jump l =>
    cases h
    exact .inr (.inl ⟨l, rfl, rfl⟩)
  | jumpIfNonZero l | jumpIfZero l =>
    rcases Effect.branch_ok h with rfl | rfl
    · exact .inl rfl
    · exact .inr (.inl ⟨l, rfl, rfl⟩)
  | stop =>
    cases h
    exact .inr (.inr (.inl ⟨rfl, rfl⟩))
  | add | subtract | divide | multiply | greaterThan | lessThan => exact .inl (Effect.binary_ok h)
  | equal | concat | length =>
    obtain ⟨operands, -, hpush⟩ := Effect.after_ok h
    cases hpush
    exact .inl rfl
  | storeMemory a =>
    obtain ⟨slot, -, hstore⟩ := Effect.after_ok h
    cases hstore
    exact .inr (.inr (.inr (.inl ⟨a, slot, rfl, rfl⟩)))
  | output a =>
    cases h
    exact .inr (.inr (.inr (.inr ⟨a, rfl, rfl⟩)))
  | format template =>
    obtain ⟨args, -, hrender⟩ := Effect.after_ok h
    split at hrender
    · cases hrender
    · cases hrender
      exact .inl rfl

/-- An instruction that asks for a jump has that label. -/
theorem Instruction.exec_ok_jump {i : Instruction} {memory : Memory} {stack : Stack} {l : Int64}
    (h : (i.exec memory stack).outcome = .ok (.jump l)) : i.jumpLabel? = some l := by
  rcases exec_ok_cases h with hr | ⟨l', hl', hr⟩ | ⟨-, hr⟩ | ⟨_, _, -, hr⟩ | ⟨_, -, hr⟩ <;> cases hr
  exact hl'

/-- Only a store asks for one, and at its own address. -/
theorem Instruction.exec_ok_store {i : Instruction} {memory : Memory} {stack : Stack} {a : Int64}
    {slot : Slot} (h : (i.exec memory stack).outcome = .ok (.store a slot)) :
    i = .storeMemory a := by
  rcases exec_ok_cases h with hr | ⟨_, -, hr⟩ | ⟨-, hr⟩ | ⟨a', _, hi, hr⟩ | ⟨_, -, hr⟩ <;> cases hr
  exact hi

end StackMachine
