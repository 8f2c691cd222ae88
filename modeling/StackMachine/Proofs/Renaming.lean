import Mathlib.Data.Set.Function
import StackMachine.Proofs.Relocation

/-!
# Label ids are names

The id of a label matters only in that a jump and a label have the same one. Renaming the ids of a
program by a function that keeps apart the ids which occur in it (`Program.Names`) leaves every
label at the place where it was found (`findLabel_rename`), and touches no other operand: an
instruction does what it did, with its jump renamed (`Instruction.exec_rename`). So the renamed
machine takes the renamed step (`step_rename`), and the two runs are in lockstep. The only trace of
the renaming is the id in the report of a label that is missing (`Fault.rename`).
-/

namespace StackMachine

/-! ## Renaming -/

/-- The instruction with the id of its label renamed. -/
def Instruction.rename (f : Int64 → Int64) : Instruction → Instruction
  | label l => label (f l)
  | jump l => jump (f l)
  | jumpIfNonZero l => jumpIfNonZero (f l)
  | jumpIfZero l => jumpIfZero (f l)
  | i => i

/-- The program with the ids of its labels renamed. -/
def Program.rename (p : Program) (f : Int64 → Int64) : Program := p.map (·.rename f)

/-- The request with the label of a jump renamed. -/
def Request.rename (f : Int64 → Int64) : Request → Request
  | jump l => jump (f l)
  | request => request

/-- The effect with the label of its jump renamed. -/
def Effect.rename (e : Effect) (f : Int64 → Int64) : Effect :=
  { e with outcome := e.outcome.map (Request.rename f) }

/-- The fault with the label that is missing renamed. -/
def Fault.rename (f : Int64 → Int64) : Fault → Fault
  | unresolvedLabel l => unresolvedLabel (f l)
  | fault => fault

/-- The machine with the fault of its result renamed. -/
def Machine.rename (m : Machine) (f : Int64 → Int64) : Machine :=
  { m with result? := m.result?.map (·.mapError (Fault.rename f)) }

variable {f : Int64 → Int64}

/-! ## One instruction -/

namespace Effect

/-- What does not jump has nothing to rename. -/
theorem rename_of_ne_jump {e : Effect} (h : ∀ l, e.outcome ≠ .ok (.jump l)) : e.rename f = e := by
  obtain ⟨stack, outcome⟩ := e
  cases outcome with
  | error fault => rfl
  | ok request =>
    cases request with
    | jump l => exact absurd rfl (h l)
    | _ => rfl

/-- A renamed jump on a condition does what it did. -/
theorem branch_rename (test : Int64 → Bool) (l : Int64) (stack : Stack) :
    branch test (f l) stack = (branch test l stack).rename f := by
  unfold branch
  generalize Stack.popInts 1 stack = popped
  obtain ⟨fault | operands, rest⟩ := popped
  · rfl
  · simp only [after, rename, Except.map]
    split <;> rfl

end Effect

/-- A renamed instruction does what it did, with its jump renamed. -/
theorem Instruction.exec_rename (i : Instruction) (memory : Memory) (stack : Stack) :
    (i.rename f).exec memory stack = (i.exec memory stack).rename f := by
  cases i with
  | label l | jump l => rfl
  | jumpIfNonZero l => exact Effect.branch_rename (· != 0) l stack
  | jumpIfZero l => exact Effect.branch_rename (· == 0) l stack
  | _ =>
    refine (Effect.rename_of_ne_jump fun l hl => ?_).symm
    cases exec_ok_jump hl

/-- No instruction finds a label missing by itself. -/
theorem Fault.rename_of_exec {i : Instruction} {memory : Memory} {stack : Stack} {fault : Fault}
    (h : (i.exec memory stack).outcome = .error fault) : fault.rename f = fault := by
  rcases Instruction.exec_error_cases h with (rfl | ⟨_, _, rfl⟩) | ⟨-, rfl⟩ | ⟨_, _, -, rfl⟩ <;> rfl

/-! ## Labels -/

namespace Program

variable {p : Program}

/-- The id occurs in the program, at a label or at a jump. -/
def Names (p : Program) (l : Int64) : Prop := .label l ∈ p ∨ p.JumpsTo l

/-- Renaming changes no size. -/
theorem size_rename (p : Program) (f : Int64 → Int64) : (p.rename f).size = p.size := Array.size_map

/-- The instructions are renamed one by one. -/
theorem getElem?_rename (p : Program) (f : Int64 → Int64) (pc : Nat) :
    (p.rename f)[pc]? = p[pc]?.map (·.rename f) := Array.getElem?_map

/-- Ids that are kept apart are found where they were. -/
theorem findLabel_rename (hf : Set.InjOn f {l | p.Names l}) {l : Int64} (hl : p.Names l) :
    (p.rename f).findLabel (f l) = p.findLabel l := by
  have hplace : ∀ j : Nat, (p.rename f)[j]? = some (.label (f l)) ↔ p[j]? = some (.label l) := by
    intro j
    rw [getElem?_rename, Option.map_eq_some_iff]
    constructor
    · rintro ⟨i, hi, hrename⟩
      cases i with
      | label l' =>
        have hnames : p.Names l' := .inl (Array.mem_of_getElem? hi)
        rw [hi, hf hnames hl (Instruction.label.inj hrename)]
      | _ => cases hrename
    · intro hj
      exact ⟨_, hj, rfl⟩
  ext j
  rw [findLabel_eq_some_iff, findLabel_eq_some_iff]
  simp only [hplace, ne_eq]

end Program

/-! ## The renamed machine -/

namespace Machine

variable {p : Program}

/-- Going somewhere leaves nothing to rename. -/
theorem goto_rename (m : Machine) (p : Program) (f : Int64 → Int64) (pc : Nat) :
    (m.rename f).goto (p.rename f) pc = (m.goto p pc).rename f := by
  have hresult : (if pc < p.size then none else some (.ok ())) =
      (if pc < p.size then none else some (.ok ()) : Option (Except Fault Unit)).map
        (·.mapError (Fault.rename f)) := by
    split <;> rfl
  unfold goto rename
  dsimp only
  rw [Program.size_rename, ← hresult]

/-- The renamed request is granted by the renamed machine. -/
theorem grant_rename (hf : Set.InjOn f {l | p.Names l}) {request : Request}
    (hjump : ∀ l, request = .jump l → p.JumpsTo l) (m : Machine) :
    (m.rename f).grant (p.rename f) (request.rename f) = (m.grant p request).rename f := by
  cases request with
  | proceed => exact goto_rename m p f (m.pc + 1)
  | jump l =>
    have hfound := Program.findLabel_rename hf (.inr (hjump l rfl))
    simp only [grant, Request.rename, hfound]
    cases p.findLabel l with
    | none => rfl
    | some i => exact goto_rename m p f (i + 1)
  | stop => rfl
  | store a slot => exact goto_rename (m.write a slot) p f (m.pc + 1)
  | emit line => exact goto_rename (m.emit line) p f (m.pc + 1)

/-- The renamed machine dispatches the renamed instruction. -/
theorem dispatch_rename (hf : Set.InjOn f {l | p.Names l}) {i : Instruction} (hi : i ∈ p)
    (m : Machine) :
    (m.rename f).dispatch (p.rename f) (i.rename f) = (m.dispatch p i).rename f := by
  have hexec : (i.rename f).exec (m.rename f).memory (m.rename f).stack =
      (i.exec m.memory m.stack).rename f := Instruction.exec_rename i m.memory m.stack
  unfold dispatch
  dsimp only
  rw [hexec]
  dsimp only [Effect.rename]
  cases houtcome : (i.exec m.memory m.stack).outcome with
  | error fault =>
    have hfault : fault.rename f = fault := Fault.rename_of_exec houtcome
    simp only [Except.map, fail, rename, Option.map_some, Except.mapError, hfault]
  | ok request =>
    have hjump : ∀ l, request = .jump l → p.JumpsTo l := by
      rintro l rfl
      exact Program.jumpsTo_of_mem hi (Instruction.exec_ok_jump houtcome)
    exact grant_rename hf hjump { m with steps := m.steps + 1, stack := _ }

/-- The renamed machine takes the renamed step. -/
theorem step_rename (hf : Set.InjOn f {l | p.Names l}) (m : Machine) :
    (m.rename f).step (p.rename f) = (m.step p).rename f :=
  step_related (R := fun m m' => m' = m.rename f) (·.rename f) rfl Iff.rfl
    (Program.getElem?_rename p f m.pc) rfl
    fun _ hi => dispatch_rename hf (Array.mem_of_getElem? hi) m

/-- The two runs go in lockstep. -/
theorem lockstep_rename (hf : Set.InjOn f {l | p.Names l}) :
    Lockstep (fun m m' => m' = m.rename f) 0 p (p.rename f) :=
  .of_map (fun _ => Iff.rfl) (fun _ => rfl) (step_rename hf) fun _ _ => rfl

/-- Label ids are only names. If the ids of a program are renamed so that different ones stay
different, the renamed program runs in lockstep with it, with a limit or without: at every moment
the machines differ at most in the label that is reported as missing. So both runs end or none does,
and they end in the same phase, with the same count, stack, memory and output, and with the result
renamed. -/
theorem runs_renamed {p : Program} {f : Int64 → Int64} (hf : Set.InjOn f {l | p.Names l})
    (limit : Option Nat) (m : Machine) :
    (∀ n, (m.start (p.rename f)).runSlice (p.rename f) limit n =
      ((m.start p).runSlice p limit n).rename f) ∧
    ((∃ final, Ends p limit m final) ↔ ∃ final', Ends (p.rename f) limit m final') ∧
    ∀ final final', Ends p limit m final → Ends (p.rename f) limit m final' →
      final' = final.rename f ∧
      final'.result? = final.result?.map (·.mapError (Fault.rename f)) := by
  have hstart : m.start (p.rename f) = (m.start p).rename f :=
    goto_rename { m with steps := 0, stack := [] } p f 0
  obtain ⟨hslices, hends, hfinals⟩ := (lockstep_rename hf).runs hstart limit
  refine ⟨hslices, hends, fun final final' hend hend' => ?_⟩
  obtain rfl := hfinals final final' hend hend'
  exact ⟨rfl, rfl⟩

/-- Two labels that change their ids, in a program whose addresses and integers are the same
numbers; a jump behind them has no label, and is reported under its new id. -/
theorem runs_renamed_swapped :
    let p : Program :=
      #[.pushInt 1, .storeMemory 2, .jump 2, .label 1, .label 2, .output 2, .pushInt 1,
        .jumpIfNonZero 3]
    let f : Int64 → Int64 := fun l => if l = 1 then 2 else if l = 2 then 1 else l + 4
    p.rename f = #[.pushInt 1, .storeMemory 2, .jump 1, .label 2, .label 1, .output 2, .pushInt 1,
      .jumpIfNonZero 7] ∧
    (run p 9 {}).FailedFor (.unresolvedLabel 3) ∧ (run p 9 {}).output = #["1"] ∧
    run (p.rename f) 9 {} = (run p 9 {}).rename f := by
  intro p f
  have hnames : ∀ l, p.Names l → l = 1 ∨ l = 2 ∨ l = 3 := by
    intro l hl
    have hor : (l = 1 ∨ l = 2) ∨ l = 2 ∨ l = 3 := by
      simpa [Program.Names, Program.JumpsTo, p] using hl
    rcases hor with (rfl | rfl) | rfl | rfl <;> simp
  have hf : Set.InjOn f {l | p.Names l} := by
    intro l hl l' hl' heq
    rcases hnames l hl with rfl | rfl | rfl <;> rcases hnames l' hl' with rfl | rfl | rfl <;>
      revert heq <;>
      decide
  obtain ⟨-, -, hfinals⟩ := runs_renamed hf (some 9) {}
  exact ⟨by simp [p, f, Program.rename, Instruction.rename], by decide +kernel, by decide +kernel,
    (hfinals _ _ (ends_run p 9 {}) (ends_run (p.rename f) 9 {})).1⟩

end Machine

end StackMachine
