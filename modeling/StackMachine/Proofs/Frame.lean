import StackMachine.Proofs.Prelude

/-!
# What lies below on the stack

An instruction takes what it needs off the top of the stack and never looks below. So further slots
under a stack change nothing about an instruction that finds its operands
(`Instruction.exec_append`), and nothing about a run that never lacks one: the machine with these
slots below (`Machine.onto`) goes through the same steps (`step_onto`, `runSlice_onto`).

A prelude that only pushes values puts such slots there. A program that does not underflow by itself
runs behind it as it runs alone, later by the instructions of the prelude and with the values below
its own (`runs_onto_pushed`).
-/

namespace StackMachine

/-! ## One instruction -/

namespace Stack

/-- Where no value is missing, what lies below does not matter and stays. -/
theorem popEach_append {accept : Slot → Except Fault α} {n : Nat} {stack : Stack}
    (h : (popEach accept n stack).1 ≠ .error .stackUnderflow) (base : Stack) :
    popEach accept n (stack ++ base) =
      ((popEach accept n stack).1, (popEach accept n stack).2 ++ base) := by
  induction n with
  | zero => rfl
  | succ n ih =>
    rw [popEach] at h
    rw [popEach, popEach]
    cases hpop : popEach accept n stack with
    | mk popped rest =>
      rw [hpop] at h ih
      cases popped with
      | error fault =>
        have hfault : fault ≠ .stackUnderflow := fun hfault => h (hfault ▸ rfl)
        rw [ih fun herror => hfault (Except.error.inj herror)]
      | ok values =>
        rw [ih fun herror => by cases herror]
        cases rest with
        | nil => exact absurd rfl h
        | cons slot rest => rfl

end Stack

namespace Effect

/-- The effect on a stack with these slots below. -/
def onto (e : Effect) (base : Stack) : Effect := { e with stack := e.stack ++ base }

/-- What starts with popping does the same on a deeper stack, if what follows does. -/
theorem after_append {accept : Slot → Except Fault α} {n : Nat} {next : Vector α n → Stack → Effect}
    {stack base : Stack}
    (hnext : ∀ values rest, next values (rest ++ base) = (next values rest).onto base)
    (h : (after (Stack.popEach accept n stack) next).outcome ≠ .error .stackUnderflow) :
    after (Stack.popEach accept n (stack ++ base)) next =
      (after (Stack.popEach accept n stack) next).onto base := by
  cases hpop : Stack.popEach accept n stack with
  | mk popped rest =>
    have hfound : (Stack.popEach accept n stack).1 ≠ .error .stackUnderflow := by
      rw [hpop] at h ⊢
      rintro rfl
      exact h rfl
    rw [Stack.popEach_append hfound, hpop]
    cases popped with
    | error fault => rfl
    | ok values => exact hnext values rest

/-- An operation on two integers is the same on a deeper stack. -/
theorem binary_append {op : Int64 → Int64 → Except Fault Value} {stack : Stack}
    (h : (binary op stack).outcome ≠ .error .stackUnderflow) (base : Stack) :
    binary op (stack ++ base) = (binary op stack).onto base := by
  refine after_append (fun operands rest => ?_) h
  cases op operands[1] operands[0] <;> rfl

/-- A jump on a condition is the same on a deeper stack. -/
theorem branch_append {test : Int64 → Bool} {label : Int64} {stack : Stack}
    (h : (branch test label stack).outcome ≠ .error .stackUnderflow) (base : Stack) :
    branch test label (stack ++ base) = (branch test label stack).onto base :=
  after_append (fun _ _ => rfl) h

end Effect

/-- An instruction that finds its operands does the same on a deeper stack. -/
theorem Instruction.exec_append {i : Instruction} {memory : Memory} {stack : Stack}
    (h : (i.exec memory stack).outcome ≠ .error .stackUnderflow) (base : Stack) :
    i.exec memory (stack ++ base) = (i.exec memory stack).onto base := by
  cases i with
  | label _ | jump _ | stop | pushInt _ | pushString _ | loadMemory _ | output _ => rfl
  | jumpIfNonZero _ | jumpIfZero _ => exact Effect.branch_append h base
  | add | subtract | divide | multiply | greaterThan | lessThan => exact Effect.binary_append h base
  | equal => exact Effect.after_append (fun _ _ => rfl) h
  | concat | length => exact Effect.after_append (fun _ _ => rfl) h
  | storeMemory a =>
    cases stack with
    | nil => exact absurd rfl h
    | cons slot rest => rfl
  | format template =>
    refine Effect.after_append (fun args rest => ?_) h
    cases Template.render template args.toList <;> rfl

/-! ## The deeper machine -/

namespace Machine

variable {p : Program} {m : Machine} {limit : Option Nat} {base : Stack}

/-- The machine with these slots below its stack. -/
def onto (m : Machine) (base : Stack) : Machine := { m with stack := m.stack ++ base }

/-- The machine has failed for want of an operand. -/
def Underflows (m : Machine) : Prop := m.FailedFor .stackUnderflow

/-- A machine that underflows has failed. -/
theorem Underflows.ne_running (h : m.Underflows) : m.phase ≠ .running := by
  rw [h.1]
  nofun

/-- A request is granted alike on a deeper stack. -/
theorem grant_onto (m : Machine) (p : Program) (request : Request) (base : Stack) :
    (m.onto base).grant p request = (m.grant p request).onto base := by
  cases request with
  | jump label =>
    rw [grant, grant]
    cases p.findLabel label <;> rfl
  | _ => rfl

/-- An instruction that finds its operands is dispatched alike on a deeper stack. -/
theorem dispatch_onto {i : Instruction} (h : ¬(m.dispatch p i).Underflows) (base : Stack) :
    (m.onto base).dispatch p i = (m.dispatch p i).onto base := by
  have hfound : (i.exec m.memory m.stack).outcome ≠ .error .stackUnderflow := by
    intro houtcome
    unfold dispatch at h
    dsimp only at h
    rw [houtcome] at h
    exact h (failedFor_fail _ _)
  have hexec :
      i.exec (m.onto base).memory (m.onto base).stack = (i.exec m.memory m.stack).onto base :=
    Instruction.exec_append hfound base
  unfold dispatch
  dsimp only
  rw [hexec]
  dsimp only [Effect.onto]
  cases (i.exec m.memory m.stack).outcome with
  | error fault => rfl
  | ok request => exact grant_onto { m with steps := m.steps + 1, stack := _ } p request base

/-- A step that finds its operands is the same on a deeper stack. -/
theorem step_onto (h : ¬(m.step p).Underflows) (base : Stack) :
    (m.onto base).step p = (m.step p).onto base := by
  by_cases hrunning : m.phase = .running
  · have hrunning' : (m.onto base).phase = .running := hrunning
    cases hdue : p[m.pc]? with
    | none =>
      rw [step_of_end hrunning hdue, step_of_end hrunning' hdue]
      rfl
    | some i =>
      rw [step_of_due hrunning hdue] at h ⊢
      rw [step_of_due hrunning' hdue]
      exact dispatch_onto h base
  · have hrunning' : (m.onto base).phase ≠ .running := hrunning
    rw [step_of_ne_running hrunning, step_of_ne_running hrunning']

/-- So are many steps: a machine that has failed stays so, hence none of them underflows before the
last. -/
theorem resume_onto {n : Nat} (h : ¬(m.resume p n).Underflows) (base : Stack) :
    (m.onto base).resume p n = (m.resume p n).onto base := by
  induction n generalizing m with
  | zero => rfl
  | succ n ih =>
    rw [resume_succ] at h ⊢
    have hstep : ¬(m.step p).Underflows := by
      intro hunder
      rw [resume_of_ne_running hunder.ne_running] at h
      exact h hunder
    rw [resume_succ, step_onto hstep, ih h]

/-- A run that finds its operands is the same on a deeper stack, with a limit or without. -/
theorem runSlice_onto {n : Nat} (h : ¬(m.runSlice p limit n).Underflows) (base : Stack) :
    (m.onto base).runSlice p limit n = (m.runSlice p limit n).onto base := by
  cases limit with
  | none => exact resume_onto h base
  | some l =>
    unfold runSlice at h ⊢
    dsimp only at h ⊢
    have hfound : ¬(m.resume p (min n (l - m.steps))).Underflows := by
      intro hunder
      rw [if_neg fun hboth => hunder.ne_running hboth.1] at h
      exact h hunder
    have hsame : (m.onto base).resume p (min n (l - (m.onto base).steps)) =
        (m.resume p (min n (l - m.steps))).onto base := resume_onto hfound base
    rw [hsame]
    generalize m.resume p (min n (l - m.steps)) = m₁
    by_cases hcut : m₁.phase = .running ∧ l ≤ m₁.steps
    · rw [if_pos hcut]
      exact if_pos hcut
    · rw [if_neg hcut]
      exact if_neg hcut

end Machine

/-! ## A prelude that pushes -/

/-- The value that an instruction pushes, if this is all it does. -/
def Instruction.pushed? : Instruction → Option Value
  | pushInt n => some (.int n)
  | pushString s => some (.str s)
  | _ => none

/-- An instruction that pushes a value is the push of it. -/
theorem Instruction.pushed?_eq_some_iff {i : Instruction} {v : Value} :
    i.pushed? = some v ↔ i = .push v := by
  constructor
  · intro h
    unfold pushed? at h
    split at h <;> cases h <;> rfl
  · rintro rfl
    cases v <;> rfl

namespace Program

/-- Every instruction of the program pushes a given value. -/
def OnlyPushes (q : Program) : Prop := ∀ i ∈ q, (∃ n, i = .pushInt n) ∨ ∃ s, i = .pushString s

/-- The values that the program pushes, in the order of its instructions. -/
def pushed (q : Program) : List Value := q.toList.filterMap Instruction.pushed?

/-- A program that only pushes is given by its values. -/
theorem OnlyPushes.toList_eq {q : Program} (h : q.OnlyPushes) :
    q.toList = q.pushed.map Instruction.push := by
  have hall : ∀ i ∈ q.toList, ∃ v, i = .push v := by
    intro i hi
    obtain ⟨n, rfl⟩ | ⟨s, rfl⟩ := h i (Array.mem_toList_iff.mp hi)
    · exact ⟨.int n, rfl⟩
    · exact ⟨.str s, rfl⟩
  unfold pushed
  generalize q.toList = code at hall
  induction code with
  | nil => rfl
  | cons i code ih =>
    obtain ⟨v, rfl⟩ := hall i List.mem_cons_self
    rw [List.filterMap_cons_some (Instruction.pushed?_eq_some_iff.mpr rfl), List.map_cons,
      ← ih fun i hi => hall i (List.mem_cons_of_mem _ hi)]

/-- A program that only pushes has no label. -/
theorem OnlyPushes.labelFree {q : Program} (h : q.OnlyPushes) : q.LabelFree := by
  intro id hid
  obtain ⟨n, hn⟩ | ⟨s, hs⟩ := h _ hid
  · cases hn
  · cases hs

end Program

namespace Machine

variable {p q : Program} {m : Machine}

/-- A program in the middle of which values are pushed: the machine that has come to the first of
them goes on behind the last one, with the values on its stack. -/
theorem resume_pushing {values : List Value} {rest : List Instruction} {pc : Nat}
    (hcode : p.toList.drop pc = values.map Instruction.push ++ rest) (m : Machine) :
    (m.goto p pc).resume p values.length =
      { m with
        steps := m.steps + values.length
        stack := values.reverse.map some ++ m.stack }.goto p (pc + values.length) := by
  induction values generalizing pc m with
  | nil => rfl
  | cons v values ih =>
    obtain ⟨hdue, hnext⟩ := Program.due_of_drop hcode
    have hsteps : m.steps + 1 + values.length = m.steps + (values.length + 1) := by omega
    have hpc : pc + 1 + values.length = pc + (values.length + 1) := by omega
    have hstack : values.reverse.map some ++ some v :: m.stack =
        (v :: values).reverse.map some ++ m.stack := by
      simp
    rw [List.length_cons, resume_succ, step_push hdue, ih hnext]
    dsimp only
    rw [hsteps, hpc, hstack]

/-- Behind the pushes the machine is where the program by itself starts, above the values. -/
theorem later_pushing (hq : q.OnlyPushes) (p : Program) (m : Machine) :
    Later q.size ((m.start p).onto (q.pushed.reverse.map some))
      ((m.start (p.withPrelude q)).resume (p.withPrelude q) q.size) := by
  have hcode : (p.withPrelude q).toList.drop 0 = q.pushed.map Instruction.push ++ p.toList := by
    rw [← hq.toList_eq]
    exact Array.toList_append
  have hsize : q.size = q.pushed.length := by
    rw [← Array.length_toList, hq.toList_eq, List.length_map]
  have hrun := resume_pushing hcode { m with steps := 0, stack := [] }
  have hbefore : Later q.size
      { m with
        phase := .ready
        result? := none
        pc := 0
        steps := 0
        stack := q.pushed.reverse.map some }
      { m with
        phase := .ready
        result? := none
        pc := 0 + q.size
        steps := 0 + q.size
        stack := q.pushed.reverse.map some ++ [] } :=
    ⟨rfl, rfl, rfl, rfl, List.append_nil _, rfl, rfl⟩
  rw [← hsize] at hrun
  rw [start, start, hrun]
  exact hbefore.goto 0

/-- A program that never lacks an operand does not look below its own stack. Behind a prelude that
only pushes values it runs as it runs alone: at every moment, later by the instructions of the
prelude, the machine is the same but for the values below its stack, and a limit that leaves room
for the prelude is reached at the same moment. So both runs end or none does, and they end alike. -/
theorem runs_onto_pushed {p q : Program} {limit : Option Nat} {m : Machine} (hq : q.OnlyPushes)
    (h : ∀ final, Ends p limit m final → ¬final.FailedFor .stackUnderflow) :
    let below := q.pushed.reverse.map some
    let full := p.withPrelude q
    let limit' := limit.map (· + q.size)
    (∀ n, Later q.size (((m.start p).runSlice p limit n).onto below)
      ((m.start full).runSlice full limit' (q.size + n))) ∧
    ((∃ final, Ends p limit m final) ↔ ∃ final', Ends full limit' m final') ∧
    (∀ final final', Ends p limit m final → Ends full limit' m final' →
      Later q.size (final.onto below) final') ∧
    (limit = none → ∀ final final', Ends p limit m final → Ends full limit' m final' →
      final'.result? = final.result?) := by
  intro below full limit'
  have hslices : ∀ n, Later q.size (((m.start p).runSlice p limit n).onto below)
      ((m.start full).runSlice full limit' (q.size + n)) := by
    intro n
    have hfound : ¬((m.start p).runSlice p limit n).Underflows := fun hunder =>
      h _ ⟨n, rfl, hunder.ne_running⟩ hunder
    have hroom : ∀ l ∈ limit', (m.start full).steps + q.size ≤ l := by
      intro l hl
      obtain ⟨l, -, rfl⟩ := Option.map_eq_some_iff.mp hl
      exact Nat.add_le_add_right (Nat.zero_le l) _
    rw [runSlice_resume hroom, ← runSlice_onto hfound]
    exact (Later.lockstep hq.labelFree).runSlice (later_pushing hq p m) limit n
  obtain ⟨hends, hfinals⟩ := ends_of_slices
    (R := fun m m' => Later q.size (m.onto below) m')
    (fun hlater => hlater.phase_eq_running) hslices
  refine ⟨hslices, hends, hfinals, ?_⟩
  rintro rfl final final' hend hend'
  rw [(hfinals final final' hend hend').result]
  obtain ⟨n, rfl, -⟩ := hend
  exact (hasNoLimitFault_unlimited p n m).raise q.size

/-- A sum of an integer and a string, which leaves the integer on the stack, above two values that a
prelude pushes: it fails in the same way, and with room for two instructions it is cut off at the
same place, where the limit that is reported has room for the prelude too. -/
theorem runs_onto_pushed_mismatch :
    (∃ final',
      Ends #[.pushString "x", .pushInt 2, .pushInt 1, .pushString "a", .add] none {} final' ∧
      final'.FailedFor (.typeMismatch .int .string) ∧ final'.steps = 5 ∧
      final'.stack = [some (.int 1), some (.int 2), some (.str "x")]) ∧
    ∃ final',
      Ends #[.pushString "x", .pushInt 2, .pushInt 1, .pushString "a", .add] (some 4) {} final' ∧
      final'.FailedFor (.stepLimitExceeded 4) ∧
      final'.stack = [some (.str "a"), some (.int 1), some (.int 2), some (.str "x")] := by
  have hq : Program.OnlyPushes #[.pushString "x", .pushInt 2] := by simp [Program.OnlyPushes]
  have hend : Ends #[.pushInt 1, .pushString "a", .add] none {}
      (runSlice #[.pushInt 1, .pushString "a", .add] none 3
        (start {} #[.pushInt 1, .pushString "a", .add])) := ⟨3, rfl, nofun⟩
  have hcut := ends_run #[.pushInt 1, .pushString "a", .add] 2 {}
  obtain ⟨-, hends, hfinals, -⟩ := runs_onto_pushed hq fun final h => h.unique hend ▸ by decide
  obtain ⟨-, hends₂, hfinals₂, -⟩ := runs_onto_pushed hq fun final h => h.unique hcut ▸ by decide
  obtain ⟨final', hend'⟩ := hends.mp ⟨_, hend⟩
  obtain ⟨final₂', hcut'⟩ := hends₂.mp ⟨_, hcut⟩
  have hlater := hfinals _ _ hend hend'
  have hlater₂ := hfinals₂ _ _ hcut hcut'
  exact ⟨⟨final', hend', ⟨hlater.phase, hlater.result⟩, hlater.steps, hlater.stack⟩,
    final₂', hcut', ⟨hlater₂.phase, hlater₂.result⟩, hlater₂.stack⟩

end Machine

end StackMachine
