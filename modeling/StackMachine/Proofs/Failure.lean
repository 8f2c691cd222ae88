import StackMachine.Machine.Control
import StackMachine.Proofs.Limit

/-!
# What a failing instruction leaves

An instruction works at the top of the stack (`Effect.AtTop`): it takes values off, and if it
succeeds it pushes one at most (`Instruction.exec_atTop`). For the rest it turns to a control unit,
which jumps, stops and emits lines, and to memory.

`Instruction.perform` turns to them as it goes along, and nothing is undone if it fails later. What
it comes to is what the effect of the instruction comes to when its request is granted at last
(`Control.perform_eq_exec`), because no instruction goes on behind its request. So a failing
instruction has turned to neither, unless a jump was refused (`Control.exec_error`), and any
instruction changes memory at the address of a store only (`Control.load_exec`).

The machine executes its instructions with such a control unit, the cursor (`dispatch_eq_settle`). A
run that fails at an instruction has the memory and the output that it had before it
(`Ends.before_failing`).
-/

namespace StackMachine

/-! ## The top of the stack -/

namespace Stack

/-- What is left behind a value that is taken off is an end of the stack. -/
theorem pop_suffix (stack : Stack) : stack.pop.2 <:+ stack := by
  cases stack with
  | nil => exact List.suffix_rfl
  | cons slot rest => exact List.suffix_cons slot rest

/-- Popping takes values off the top, whether it fails or not. -/
theorem popEach_suffix (accept : Slot → Except Fault α) (n : Nat) (stack : Stack) :
    (popEach accept n stack).2 <:+ stack := by
  obtain ⟨slots, _, rest, rfl, -, hpop⟩ | ⟨above, _, slot, rest, _, rfl, -, -, -, hpop⟩ |
    ⟨_, -, -, hpop⟩ :=
    popEach_cases accept n stack
  · rw [hpop]
    exact List.suffix_append slots rest
  · rw [hpop]
    exact (List.suffix_cons slot rest).trans (List.suffix_append above (slot :: rest))
  · rw [hpop]
    exact List.nil_suffix

end Stack

namespace Effect

/-- The effect takes values off the top of the stack and pushes at most one, and that only where the
next instruction is to follow. -/
structure AtTop (e : Effect) (stack : Stack) : Prop where
  pushes : ∃ pushed rest, e.stack = pushed ++ rest ∧ pushed.length ≤ 1 ∧ rest <:+ stack
  pops : e.outcome ≠ .ok .proceed → e.stack <:+ stack

/-- An effect that leaves an end of the stack works at its top. -/
theorem AtTop.of_suffix {e : Effect} {stack : Stack} (h : e.stack <:+ stack) : e.AtTop stack where
  pushes := ⟨[], e.stack, rfl, Nat.zero_le 1, h⟩
  pops _ := h

/-- An effect that leaves the stack works at its top. -/
theorem AtTop.leave (stack : Stack) (outcome : Except Fault Request) :
    AtTop ⟨stack, outcome⟩ stack :=
  .of_suffix List.suffix_rfl

/-- An effect that pushes a slot works at the top of the stack. -/
theorem AtTop.push (slot : Slot) (stack : Stack) : AtTop ⟨slot :: stack, .ok .proceed⟩ stack where
  pushes := ⟨[slot], stack, rfl, Nat.le_refl 1, List.suffix_rfl⟩
  pops h := absurd rfl h

/-- What works at the top of the stack that popping leaves works at the top of the stack before. -/
theorem AtTop.after {stack : Stack} {popped : Except Fault α × Stack} {next : α → Stack → Effect}
    (hpop : popped.2 <:+ stack) (hnext : ∀ a, (next a popped.2).AtTop popped.2) :
    (after popped next).AtTop stack := by
  obtain ⟨values, rest⟩ := popped
  cases values with
  | error early => exact .of_suffix hpop
  | ok a =>
    obtain ⟨pushed, below, hstack, hpushed, hbelow⟩ := (hnext a).pushes
    exact ⟨⟨pushed, below, hstack, hpushed, hbelow.trans hpop⟩,
      fun h => ((hnext a).pops h).trans hpop⟩

/-- An operation on two integers works at the top of the stack. -/
theorem AtTop.binary (op : Int64 → Int64 → Except Fault Value) (stack : Stack) :
    (binary op stack).AtTop stack := by
  refine .after (Stack.popEach_suffix _ _ _) fun operands => ?_
  split
  · exact .leave _ _
  · exact .push _ _

/-- A jump on a condition works at the top of the stack. -/
theorem AtTop.branch (test : Int64 → Bool) (label : Int64) (stack : Stack) :
    (branch test label stack).AtTop stack :=
  .after (Stack.popEach_suffix _ _ _) fun _ => .leave _ _

end Effect

/-- Two slots come off the stack one after the other. -/
theorem Effect.after_popSlots_two (stack : Stack) (next : Vector Slot 2 → Stack → Effect) :
    after (Stack.popSlots 2 stack) next =
      after stack.pop fun first rest => after rest.pop fun second => next #v[first, second] := by
  rcases stack with _ | ⟨first, _ | ⟨second, rest⟩⟩ <;> rfl

/-- Every instruction works at the top of the stack. -/
theorem Instruction.exec_atTop (i : Instruction) (memory : Memory) (stack : Stack) :
    (i.exec memory stack).AtTop stack := by
  cases i with
  | label _ | jump _ | stop | output _ => exact .leave _ _
  | jumpIfNonZero _ | jumpIfZero _ =>
    rw [exec]
    exact .branch _ _ _
  | add | subtract | divide | multiply | greaterThan | lessThan =>
    rw [exec]
    exact .binary _ _
  | equal | concat | length => exact .after (Stack.popEach_suffix _ _ _) fun _ => .push _ _
  | pushInt _ | pushString _ | loadMemory _ => exact .push _ _
  | storeMemory _ => exact .after stack.pop_suffix fun _ => .leave _ _
  | format template =>
    refine .after (Stack.popEach_suffix _ _ _) fun args => ?_
    split
    · exact .leave _ _
    · exact .push _ _

/-! ## Control units -/

namespace Control

variable {σ : Type}

/-- Grants what an instruction asks for. -/
def grant (control : Control σ) (unit : σ) (memory : Memory) (stack : Stack) :
    Request → Aftermath σ
  | .proceed => ⟨.ok (), unit, stack, memory⟩
  | .jump l => ⟨(control.jump l unit).1, (control.jump l unit).2, stack, memory⟩
  | .stop => ⟨.ok (), control.stop unit, stack, memory⟩
  | .store a slot => ⟨.ok (), unit, stack, memory.store a slot⟩
  | .emit line => ⟨.ok (), control.emit line unit, stack, memory⟩

/-- What an effect leaves behind whose request is granted. -/
def settle (control : Control σ) (unit : σ) (memory : Memory) (effect : Effect) : Aftermath σ :=
  match effect.outcome with
  | .error fault => ⟨.error fault, unit, effect.stack, memory⟩
  | .ok request => control.grant unit memory effect.stack request

/-- What an instruction leaves behind whose request is granted. -/
def exec (control : Control σ) (unit : σ) (memory : Memory) (stack : Stack) (i : Instruction) :
    Aftermath σ :=
  control.settle unit memory (i.exec memory stack)

end Control

/-! ## One thing after the other -/

namespace Doing

variable {σ α : Type}

/-- What a part of an instruction leaves behind. -/
def aftermath (part : Doing σ Unit) (unit : σ) (memory : Memory) (stack : Stack) : Aftermath σ :=
  let (result, site) := part.run ⟨unit, stack, memory⟩
  ⟨result, site.unit, site.stack, site.memory⟩

/-- The part of an instruction comes to the same as this effect with its request granted. -/
def Comes (control : Control σ) (part : Doing σ Unit) (memory : Memory) (stack : Stack)
    (effect : Effect) : Prop :=
  ∀ unit, part.aftermath unit memory stack = control.settle unit memory effect

variable {control : Control σ} {memory : Memory}

/-- What goes on with the values that come off the stack comes to the same if it does so for all of
them; otherwise both fail with the stack as it is then. -/
theorem Comes.popping {pop : Stack → Except Fault α × Stack} {next : α → Doing σ Unit}
    {next' : α → Stack → Effect}
    (h : ∀ a rest, Comes control (next a) memory rest (next' a rest)) (stack : Stack) :
    Comes control (do next (← Doing.popping pop)) memory stack (.after (pop stack) next') := by
  intro unit
  have hrun : (do next (← Doing.popping pop) : Doing σ Unit).aftermath unit memory stack =
      match pop stack with
      | (.error fault, rest) => ⟨.error fault, unit, rest, memory⟩
      | (.ok a, rest) => (next a).aftermath unit memory rest := by
    unfold aftermath Doing.popping
    simp only [bind, ExceptT.bind, ExceptT.mk, ExceptT.run, StateT.bind, ExceptT.bindCont]
    rcases pop stack with ⟨_ | _, rest⟩ <;> rfl
  rw [hrun]
  rcases pop stack with ⟨fault | a, rest⟩
  · rfl
  · exact h a rest unit

/-- Pushing a slot is an effect that asks for nothing. -/
theorem Comes.push (slot : Slot) (stack : Stack) :
    Comes control (Doing.push slot) memory stack ⟨slot :: stack, .ok .proceed⟩ :=
  fun _ => rfl

/-- A jump is an effect that asks for it. -/
theorem Comes.jump (label : Int64) (stack : Stack) :
    Comes control (Doing.jump control label) memory stack ⟨stack, .ok (.jump label)⟩ :=
  fun _ => rfl

/-- Operations on two integers are the same in both forms. -/
theorem Comes.binary (op : Int64 → Int64 → Except Fault Value) (stack : Stack) :
    Comes control (Doing.binary op) memory stack (.binary op stack) := by
  refine Comes.popping (fun operands rest => ?_) stack
  have hget : op (operands.get 1) (operands.get 0) = op operands[1] operands[0] := rfl
  rw [hget]
  cases op operands[1] operands[0] with
  | error fault => exact fun _ => rfl
  | ok value => exact .push _ rest

/-- A jump on a condition is the same in both forms. -/
theorem Comes.branch (test : Int64 → Bool) (label : Int64) (stack : Stack) :
    Comes control
      (do
        let condition ← Doing.popping (Stack.popInts 1)
        if test (condition.get 0) then Doing.jump control label)
      memory stack (.branch test label stack) := by
  refine Comes.popping (fun condition rest => ?_) stack
  have hget : test (condition.get 0) = test condition[0] := rfl
  rw [hget]
  cases test condition[0] <;> exact fun _ => rfl

end Doing

namespace Control

variable {σ : Type}

/-- An instruction that turns to its control unit and to memory as it goes along comes to the same
as one whose request is granted at last. -/
theorem perform_eq_exec (control : Control σ) (unit : σ) (memory : Memory) (stack : Stack)
    (i : Instruction) :
    control.perform unit memory stack i = control.exec unit memory stack i := by
  suffices h :
      Doing.Comes control (i.perform control) memory stack (i.exec memory stack) from h unit
  cases i with
  | label _ => exact fun _ => rfl
  | jump l => exact .jump l stack
  | jumpIfNonZero l => exact .branch (· != 0) l stack
  | jumpIfZero l => exact .branch (· == 0) l stack
  | stop => exact fun _ => rfl
  | add => exact .binary (fun left right => .ok (.int (left + right))) stack
  | subtract => exact .binary (fun left right => .ok (.int (left - right))) stack
  | divide => exact .binary quotient stack
  | multiply => exact .binary (fun left right => .ok (.int (left * right))) stack
  | greaterThan => exact .binary (fun left right => .ok (.ofBool (left > right))) stack
  | lessThan => exact .binary (fun left right => .ok (.ofBool (left < right))) stack
  | equal =>
    rw [Instruction.exec, Effect.after_popSlots_two]
    exact .popping (fun _ rest => .popping (fun _ rest _ => rfl) rest) stack
  | pushInt _ | pushString _ => exact .push _ stack
  | storeMemory a => exact .popping (fun slot rest _ => rfl) stack
  | loadMemory a => exact fun _ => rfl
  | output a => exact fun _ => rfl
  | concat | length => exact .popping (fun _ rest => .push _ rest) stack
  | format template =>
    refine .popping (fun args rest => ?_) stack
    cases Template.render template args.toList with
    | error fault => exact fun _ => rfl
    | ok text => exact .push _ rest

variable {control : Control σ} {unit : σ} {memory : Memory} {stack : Stack} {i : Instruction}

/-- An instruction that fails leaves the control unit and memory as they are. -/
theorem exec_of_error {fault : Fault} (h : (i.exec memory stack).outcome = .error fault) :
    control.exec unit memory stack i =
      ⟨.error fault, unit, (i.exec memory stack).stack, memory⟩ := by
  simp only [exec, settle, h]

/-- An instruction that succeeds leaves what granting its request leaves. -/
theorem exec_of_ok {request : Request} (h : (i.exec memory stack).outcome = .ok request) :
    control.exec unit memory stack i =
      control.grant unit memory (i.exec memory stack).stack request := by
  simp only [exec, settle, h]

/-- Granting a request leaves the stack as it is. -/
theorem stack_grant (request : Request) :
    (control.grant unit memory stack request).stack = stack := by
  cases request <;> rfl

/-- Nothing is refused but a jump, and nothing has happened then but what the control unit made of
it. -/
theorem grant_error {request : Request} {fault : Fault}
    (h : (control.grant unit memory stack request).result = .error fault) :
    ∃ l, request = .jump l ∧ (control.grant unit memory stack request).memory = memory ∧
      control.jump l unit = (.error fault, (control.grant unit memory stack request).unit) := by
  cases request with
  | jump l => exact ⟨l, rfl, rfl, Prod.ext h rfl⟩
  | _ => cases h

/-- A failing instruction has taken values off the stack, and has changed neither memory nor the
control unit, unless that refused its jump. -/
theorem exec_error {fault : Fault} (h : (control.exec unit memory stack i).result = .error fault) :
    (control.exec unit memory stack i).memory = memory ∧
    (control.exec unit memory stack i).stack <:+ stack ∧
    ((control.exec unit memory stack i).unit = unit ∨
      ∃ l, i.jumpLabel? = some l ∧
        control.jump l unit = (.error fault, (control.exec unit memory stack i).unit)) := by
  have htop := i.exec_atTop memory stack
  cases houtcome : (i.exec memory stack).outcome with
  | error early =>
    rw [exec_of_error houtcome]
    exact ⟨rfl, htop.pops (by rw [houtcome]; nofun), .inl rfl⟩
  | ok request =>
    rw [exec_of_ok houtcome] at h ⊢
    obtain ⟨l, rfl, hmemory, hjump⟩ := grant_error h
    refine ⟨hmemory, ?_, .inr ⟨l, Instruction.exec_ok_jump houtcome, hjump⟩⟩
    rw [stack_grant]
    exact htop.pops (by rw [houtcome]; nofun)

/-- Whether it fails or not, an instruction has taken values off the stack and pushed at most
one. -/
theorem exec_pushes (control : Control σ) (unit : σ) (memory : Memory) (stack : Stack)
    (i : Instruction) :
    ∃ pushed rest, (control.exec unit memory stack i).stack = pushed ++ rest ∧ pushed.length ≤ 1 ∧
      rest <:+ stack := by
  have hstack : (control.exec unit memory stack i).stack = (i.exec memory stack).stack := by
    cases houtcome : (i.exec memory stack).outcome with
    | error fault => rw [exec_of_error houtcome]
    | ok request => rw [exec_of_ok houtcome, stack_grant]
  rw [hstack]
  exact (i.exec_atTop memory stack).pushes

/-- Memory is changed at the address of a store only. -/
theorem load_exec {address : Int64} (h : i ≠ .storeMemory address) :
    (control.exec unit memory stack i).memory.load address = memory.load address := by
  cases houtcome : (i.exec memory stack).outcome with
  | error fault => rw [exec_of_error houtcome]
  | ok request =>
    rw [exec_of_ok houtcome]
    cases request with
    | store a slot =>
      obtain rfl := Instruction.exec_ok_store houtcome
      have hne : a ≠ address := fun ha => h (congrArg Instruction.storeMemory ha)
      exact (memory.load_store a address slot).trans (if_neg hne)
    | _ => rfl

end Control

/-! ## The machine -/

/-- The control unit of a run: where it stands, whether it was stopped, and the lines written so
far. -/
structure Cursor where
  pc : Nat
  halted : Bool
  output : Array String

/-- In a run, a jump goes to the place of its label and is refused where there is none. -/
def Cursor.control (p : Program) : Control Cursor where
  jump l cursor :=
    match p.findLabel l with
    | some place => (.ok (), { cursor with pc := place })
    | none => (.error (.unresolvedLabel l), cursor)
  stop cursor := { cursor with halted := true }
  emit line cursor := { cursor with output := cursor.output.push line }

/-- The cursor does not move for a jump that it refuses. -/
theorem Cursor.eq_of_jump_error {p : Program} {l : Int64} {cursor cursor' : Cursor} {fault : Fault}
    (h : (control p).jump l cursor = (.error fault, cursor')) : cursor' = cursor := by
  unfold control at h
  dsimp only at h
  split at h
  · cases h
  · cases h
    rfl

namespace Machine

variable {p : Program} {m : Machine} {limit : Option Nat} {fault : Fault}

/-- The cursor of a machine that is running. -/
def cursor (m : Machine) : Cursor := ⟨m.pc, false, m.output⟩

/-- The machine after an instruction that has left this behind. The cursor does not keep the log of
stores. -/
def settle (m : Machine) (p : Program) (after : Aftermath Cursor) (stores : Array (Int64 × Slot)) :
    Machine :=
  let m := { m with
    steps := m.steps + 1, stack := after.stack, memory := after.memory,
    output := after.unit.output, stores }
  match after.result with
  | .error fault => m.fail fault
  | .ok () => if after.unit.halted then m.halt else m.goto p (after.unit.pc + 1)

/-- The machine executes its instructions with the cursor as their control unit. -/
theorem dispatch_eq_settle (m : Machine) (p : Program) (i : Instruction) :
    m.dispatch p i =
      m.settle p ((Cursor.control p).perform m.cursor m.memory m.stack i)
        (m.dispatch p i).stores := by
  rw [Control.perform_eq_exec]
  cases houtcome : (i.exec m.memory m.stack).outcome with
  | error fault =>
    rw [Control.exec_of_error houtcome]
    simp only [dispatch, houtcome]
    rfl
  | ok request =>
    rw [Control.exec_of_ok houtcome]
    simp only [dispatch, houtcome]
    cases request with
    | jump l =>
      cases hl : p.findLabel l with
      | none =>
        simp only [grant, Control.grant, Cursor.control, hl]
        rfl
      | some place =>
        simp only [grant, Control.grant, Cursor.control, hl]
        rfl
    | _ => rfl

/-- A step that fails is counted and takes values off the stack, and changes nothing else. -/
theorem step_of_failed (hrunning : m.phase = .running) (h : (m.step p).FailedFor fault) :
    ∃ rest, rest <:+ m.stack ∧
      m.step p = { m with steps := m.steps + 1, stack := rest }.fail fault := by
  cases hdue : p[m.pc]? with
  | none =>
    rw [step_of_end hrunning hdue] at h
    cases h.1
  | some i =>
    rw [step_of_due hrunning hdue] at h ⊢
    have hpops : (i.exec m.memory m.stack).outcome ≠ .ok .proceed := by
      rcases phase_dispatch_cases m p i with ⟨_, houtcome, -⟩ | ⟨_, houtcome, -⟩ | hphase | hphase
      · rw [houtcome]
        nofun
      · rw [houtcome]
        nofun
      · cases hphase.symm.trans h.1
      · cases hphase.symm.trans h.1
    exact ⟨_, (i.exec_atTop m.memory m.stack).pops hpops, dispatch_of_failed h⟩

/-- A run that fails at an instruction was running before it, and since then has counted it and
taken values off the stack. -/
theorem Ends.before_failing {final : Machine} (h : Ends p limit m final)
    (hfault : final.FailedFor fault) (hlimit : ∀ l, fault ≠ .stepLimitExceeded l) :
    ∃ n rest, ((m.start p).resume p n).phase = .running ∧ ((m.start p).resume p n).steps = n ∧
      rest <:+ ((m.start p).resume p n).stack ∧
      final = { (m.start p).resume p n with steps := n + 1, stack := rest }.fail fault := by
  obtain ⟨l, -, hl, -⟩ | ⟨n, -, hrunning, rfl⟩ := h.failing_step hfault
  · exact absurd hl (hlimit l)
  · have hcount : ((m.start p).resume p n).steps = n :=
      (steps_resume_of_running hrunning).trans (Nat.zero_add n)
    obtain ⟨rest, hrest, hstep⟩ := step_of_failed hrunning hfault
    rw [hcount] at hstep
    exact ⟨n, rest, hrunning, hcount, hrest, hstep⟩

end Machine

/-- A failing instruction only takes values off the stack. With every control unit, memory and
stack, an instruction that fails leaves memory as it is, and the control unit too, unless that
refused its jump; and the stack is what it was below the values taken off. One that succeeds has
pushed one value at most besides, and has changed memory only where it stores. The machine executes
every instruction in this way, with the cursor as its control unit, and the cursor refuses a jump
without moving. So a run that fails at an instruction has the memory and the output that it had
before that instruction was dispatched. -/
theorem fault_only_pops :
    (∀ {σ : Type} (control : Control σ) (unit : σ) (memory : Memory) (stack : Stack)
      (i : Instruction),
      let after := control.perform unit memory stack i
      (∀ fault, after.result = .error fault →
        after.memory = memory ∧ after.stack <:+ stack ∧
        (after.unit = unit ∨
          ∃ l, i.jumpLabel? = some l ∧ control.jump l unit = (.error fault, after.unit))) ∧
      (after.result = .ok () →
        (∃ pushed rest, after.stack = pushed ++ rest ∧ pushed.length ≤ 1 ∧ rest <:+ stack) ∧
        ∀ address, i ≠ .storeMemory address → after.memory.load address = memory.load address)) ∧
    (∀ (p : Program) (m : Machine) (i : Instruction),
      m.dispatch p i =
        m.settle p ((Cursor.control p).perform m.cursor m.memory m.stack i)
          (m.dispatch p i).stores) ∧
    (∀ (p : Program) (l : Int64) (cursor cursor' : Cursor) (fault : Fault),
      (Cursor.control p).jump l cursor = (.error fault, cursor') → cursor' = cursor) ∧
    ∀ (p : Program) (limit : Option Nat) (m final : Machine) (fault : Fault),
      Machine.Ends p limit m final → final.FailedFor fault →
      (∀ l, fault ≠ .stepLimitExceeded l) →
      ∃ k, final.steps = k + 1 ∧
        let before := (m.start p).resume p k
        before.phase = .running ∧ before.steps = k ∧
        final.memory = before.memory ∧ final.output = before.output ∧
        final.stack <:+ before.stack := by
  refine ⟨?instruction, fun p m i => m.dispatch_eq_settle p i, ?refused, ?run⟩
  case instruction =>
    intro σ control unit memory stack i
    rw [control.perform_eq_exec]
    exact ⟨fun fault h => Control.exec_error h,
      fun _ => ⟨control.exec_pushes unit memory stack i, fun address h => Control.load_exec h⟩⟩
  case refused =>
    intro p l cursor cursor' fault h
    exact Cursor.eq_of_jump_error h
  case run =>
    intro p limit m final fault hends hfault hlimit
    obtain ⟨k, rest, hrunning, hcount, hrest, rfl⟩ := hends.before_failing hfault hlimit
    exact ⟨k, rfl, hrunning, hcount, rfl, rfl, hrest⟩

/-- A control unit that writes every call down and refuses every jump: a conditional jump loses its
operand and leaves one note. A store succeeds and leaves the other cells alone. A run that fails
while it takes the second operand of an addition off the stack has the line and the cell from
before. -/
theorem fault_only_pops_mid_run :
    let notes : Control (List String) :=
      ⟨fun l log => (.error (.unresolvedLabel l), "jump" :: log), ("stop" :: ·),
        fun line log => line :: log⟩
    let refused := notes.perform [] .empty [some (.int 1), none] (.jumpIfNonZero 3)
    let stored := notes.perform [] .empty [some (.int 1), none] (.storeMemory 4)
    let p : Program := #[.pushInt 7, .storeMemory 1, .output 1, .pushString "x", .pushInt 2, .add]
    (refused.result = .error (.unresolvedLabel 3) ∧ refused.stack <:+ [some (.int 1), none] ∧
      refused.memory = .empty ∧ refused.unit = ["jump"]) ∧
    (stored.result = .ok () ∧ stored.memory.load 4 = some (.int 1) ∧ stored.memory.load 5 = none) ∧
    (Machine.run p 9 {}).FailedFor (.typeMismatch .int .string) ∧
    ∃ k, (Machine.run p 9 {}).steps = k + 1 ∧ k = 5 ∧
      (Machine.run p 9 {}).memory = ((Machine.start {} p).resume p k).memory ∧
      (Machine.run p 9 {}).output = ((Machine.start {} p).resume p k).output := by
  intro notes refused stored p
  obtain ⟨hinstruction, -, -, hrun⟩ := fault_only_pops
  have hrefused : refused.result = .error (.unresolvedLabel 3) := rfl
  have hstored : stored.result = .ok () := rfl
  have hfault : (Machine.run p 9 {}).FailedFor (.typeMismatch .int .string) := by decide +kernel
  obtain ⟨hkept, hpopped, -⟩ := (hinstruction notes [] .empty _ _).1 _ hrefused
  obtain ⟨-, helsewhere⟩ := (hinstruction notes [] .empty _ _).2 hstored
  obtain ⟨k, hk, -, -, hmemory, houtput, -⟩ := hrun p _ _ _ _ (Machine.ends_run p 9 {}) hfault nofun
  refine ⟨⟨hrefused, hpopped, hkept, rfl⟩,
    ⟨hstored, ?_, (helsewhere 5 nofun).trans (Memory.load_empty 5)⟩,
    hfault, k, hk, ?_, hmemory, houtput⟩
  · exact Memory.load_store_self _ _ _
  · have hsteps : (Machine.run p 9 {}).steps = 6 := by decide +kernel
    omega

end StackMachine
