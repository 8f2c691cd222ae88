import StackMachine.Machine.Effect

/-!
# The machine

A machine dispatches the instructions of a program one at a time. `step` is one dispatch: a machine
that is not running stays as it is, and one whose program counter has left the program has halted.
So `resume`, which dispatches at most `n` instructions, is `step` done `n` times
(`resume_eq_iterate`), and a limit on the number of instructions is nothing but a bound on `n`.

The output and the stores are logs, oldest first. A run starts with an empty stack and a count of
zero (`start`), and leaves memory and the logs as earlier runs left them.
-/

namespace StackMachine

/-- How far a machine has come with a run. -/
inductive Phase where
  /-- No run was started. -/
  | ready
  /-- An instruction is due. -/
  | running
  /-- The run has stopped or has reached the end of the program. -/
  | halted
  /-- The run has failed. -/
  | failed
  deriving DecidableEq

/-- A machine between two instructions. -/
structure Machine where
  phase : Phase := .ready
  /-- What the run came to; there is nothing before its end. -/
  result? : Option (Except Fault Unit) := none
  /-- The index of the instruction that is due. -/
  pc : Nat := 0
  /-- The number of instructions dispatched in this run. It has no bound here, and what becomes of a
  run of `2 ^ 64` instructions or more, which no 64-bit word can count, is left open. -/
  steps : Nat := 0
  stack : Stack := []
  memory : Memory := .empty
  /-- The lines written so far. -/
  output : Array String := #[]
  /-- The stores made so far. -/
  stores : Array (Int64 × Slot) := #[]

namespace Machine

/-- The machine fails. -/
def fail (m : Machine) (fault : Fault) : Machine :=
  { m with phase := .failed, result? := some (.error fault) }

/-- The machine has come to the end of its run. -/
def halt (m : Machine) : Machine := { m with phase := .halted, result? := some (.ok ()) }

/-- The instruction at `pc` is due next; past the end of the program the machine halts. -/
def goto (m : Machine) (p : Program) (pc : Nat) : Machine :=
  { m with
    pc
    phase := if pc < p.size then .running else .halted
    result? := if pc < p.size then none else some (.ok ()) }

/-- A store, noted in the log. -/
def write (m : Machine) (address : Int64) (slot : Slot) : Machine :=
  { m with memory := m.memory.store address slot, stores := m.stores.push (address, slot) }

/-- Stores in the order of the list. -/
def writeAll (m : Machine) (stores : List (Int64 × Slot)) : Machine :=
  stores.foldl (fun m s => m.write s.1 s.2) m

/-- A line of output. -/
def emit (m : Machine) (line : String) : Machine := { m with output := m.output.push line }

/-- Grants what an instruction asks for. A jump goes on behind its label, so the label itself is not
dispatched. -/
def grant (m : Machine) (p : Program) : Request → Machine
  | .proceed => m.goto p (m.pc + 1)
  | .jump l =>
    match p.findLabel l with
    | some i => m.goto p (i + 1)
    | none => m.fail (.unresolvedLabel l)
  | .stop => m.halt
  | .store a slot => (m.write a slot).goto p (m.pc + 1)
  | .emit line => (m.emit line).goto p (m.pc + 1)

/-- Executes one instruction. -/
def dispatch (m : Machine) (p : Program) (i : Instruction) : Machine :=
  let effect := i.exec m.memory m.stack
  let m := { m with steps := m.steps + 1, stack := effect.stack }
  match effect.outcome with
  | .error fault => m.fail fault
  | .ok request => m.grant p request

/-- Dispatches the instruction that is due, if the machine is running. -/
def step (p : Program) (m : Machine) : Machine :=
  match m.phase, p[m.pc]? with
  | .running, some i => m.dispatch p i
  | .running, none => m.halt
  | _, _ => m

/-- Dispatches at most `n` instructions. -/
def resume (p : Program) : Nat → Machine → Machine
  | 0, m => m
  | n + 1, m => if m.phase = .running then resume p n (m.step p) else m

/-- Starts a run. -/
def start (m : Machine) (p : Program) : Machine :=
  { m with steps := 0, stack := [] }.goto p 0

/-- Runs on for at most `slice` instructions, and fails when `limit` instructions are dispatched and
another one is due. -/
def runSlice (p : Program) (limit : Option Nat) (slice : Nat) (m : Machine) : Machine :=
  match limit with
  | none => m.resume p slice
  | some l =>
    let m := m.resume p (min slice (l - m.steps))
    if m.phase = .running ∧ l ≤ m.steps then m.fail (.stepLimitExceeded l) else m

/-- Starts a run of at most `limit` instructions and carries it to its end. -/
def run (p : Program) (limit : Nat) (m : Machine) : Machine :=
  (m.start p).runSlice p (some limit) limit

/-- A machine that is not running stays as it is. -/
theorem step_of_ne_running {p : Program} {m : Machine} (h : m.phase ≠ .running) : m.step p = m := by
  unfold step
  split <;> simp_all

/-- To resume for `n` instructions is to take `n` steps. -/
theorem resume_eq_iterate (p : Program) (n : Nat) (m : Machine) :
    m.resume p n = Nat.repeat (step p) n m := by
  have comm : ∀ n m, Nat.repeat (step p) n (m.step p) = Nat.repeat (step p) (n + 1) m := by
    intro n
    induction n with
    | zero => intro m; rfl
    | succ n ih => intro m; simp only [Nat.repeat, ih]
  have stay : ∀ n m, m.phase ≠ .running → Nat.repeat (step p) n m = m := by
    intro n
    induction n with
    | zero => intro m _; rfl
    | succ n ih =>
      intro m h
      simp only [Nat.repeat, ih m h, step_of_ne_running h]
  induction n generalizing m with
  | zero => rfl
  | succ n ih =>
    rw [resume]
    split
    · rw [ih, comm]
    · rename_i h
      exact (stay _ _ h).symm

end Machine

end StackMachine
