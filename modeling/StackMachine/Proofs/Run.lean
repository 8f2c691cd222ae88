import StackMachine.Machine
import StackMachine.Proofs.Effect

/-!
# Runs

What every run has in common. A step is counted exactly when the machine runs on after it
(`steps_step_of_running`), never takes back a line of output (`output_step_grows`) and never reports
a step limit (`HasNoLimitFault.step`). Where it goes is an edge of the program, unless it fails or
stops (`step_cases`). `resume_invariant` carries such facts from a step to any number of them. A run
can be carried on in slices of any size (`runSlice_add`), so a run has at most one end, which `Ends`
relates it to. A run with a limit always has one (`ends_run`).

Two machines that a step keeps alike (`Lockstep`) are alike after every slice of their runs, and
then they end alike or never (`ends_of_slices`, `Lockstep.runs`). Where one of them may take more
steps than the other (`Stutter`), this still holds of runs without a limit (`Stutter.runs`).
-/

namespace StackMachine.Machine

variable {p : Program} {m : Machine} {limit : Option Nat}

/-! ## One step -/

/-- The machine has failed, and this is the fault. -/
def FailedFor (m : Machine) (fault : Fault) : Prop :=
  m.phase = .failed ∧ m.result? = some (.error fault)

instance (m : Machine) (fault : Fault) : Decidable (m.FailedFor fault) :=
  inferInstanceAs (Decidable (_ ∧ _))

/-- Failing is failing for the fault. -/
theorem failedFor_fail (m : Machine) (fault : Fault) : (m.fail fault).FailedFor fault := ⟨rfl, rfl⟩

/-- A machine fails for one fault. -/
theorem FailedFor.unique {fault fault' : Fault} (h : m.FailedFor fault) (h' : m.FailedFor fault') :
    fault = fault' :=
  Except.error.inj (Option.some.inj (h.2.symm.trans h'.2))

/-- The instruction that is due is dispatched. -/
theorem step_of_due {i : Instruction} (hrunning : m.phase = .running) (hdue : p[m.pc]? = some i) :
    m.step p = m.dispatch p i := by
  rw [step, hrunning, hdue]

/-- Where none is due the machine halts. -/
theorem step_of_end (hrunning : m.phase = .running) (hend : p[m.pc]? = none) :
    m.step p = m.halt := by
  rw [step, hrunning, hend]

/-- Two machines that are due the same instruction, up to a translation, are related after a step if
they are related after dispatching it. -/
theorem step_related {R : Machine → Machine → Prop} {p p' : Program} {m m' : Machine}
    (translate : Instruction → Instruction) (h : R m m')
    (hrunning : m'.phase = .running ↔ m.phase = .running)
    (hdue : p'[m'.pc]? = p[m.pc]?.map translate)
    (hhalt : R m.halt m'.halt)
    (hdispatch : ∀ i, p[m.pc]? = some i → R (m.dispatch p i) (m'.dispatch p' (translate i))) :
    R (m.step p) (m'.step p') := by
  rcases Decidable.em (m.phase = .running) with hrun | hrun
  · have hrun' := hrunning.mpr hrun
    cases hi : p[m.pc]? with
    | none =>
      rw [hi, Option.map_none] at hdue
      rwa [step_of_end hrun hi, step_of_end hrun' hdue]
    | some i =>
      rw [hi, Option.map_some] at hdue
      rw [step_of_due hrun hi, step_of_due hrun' hdue]
      exact hdispatch i hi
  · have hrun' : m'.phase ≠ .running := fun hr => hrun (hrunning.mp hr)
    rwa [step_of_ne_running hrun, step_of_ne_running hrun']

/-- Granting a request is not counted. -/
@[simp] theorem steps_grant (m : Machine) (p : Program) (request : Request) :
    (m.grant p request).steps = m.steps := by
  cases request with
  | jump label =>
    rw [grant]
    split <;> rfl
  | _ => rfl

/-- A dispatch counts one instruction, whether it fails or not. -/
theorem steps_dispatch (m : Machine) (p : Program) (i : Instruction) :
    (m.dispatch p i).steps = m.steps + 1 := by
  unfold dispatch
  dsimp only
  split
  · rfl
  · rw [steps_grant]

/-- A step counts at most one instruction. -/
theorem steps_step_le (p : Program) (m : Machine) : (m.step p).steps ≤ m.steps + 1 := by
  unfold step
  split
  · exact Nat.le_of_eq (steps_dispatch _ _ _)
  · exact Nat.le_succ _
  · exact Nat.le_succ _

/-- A step after which an instruction is due was one, and is counted. -/
theorem steps_step_of_running (h : (m.step p).phase = .running) :
    m.phase = .running ∧ (m.step p).steps = m.steps + 1 := by
  have hrunning : m.phase = .running := by
    refine Decidable.byContradiction fun hne => hne ?_
    rwa [step_of_ne_running hne] at h
  refine ⟨hrunning, ?_⟩
  cases hdue : p[m.pc]? with
  | some i => rw [step_of_due hrunning hdue, steps_dispatch]
  | none =>
    rw [step_of_end hrunning hdue] at h
    cases h

/-- A machine that goes somewhere runs or has halted. -/
theorem phase_goto_cases (m : Machine) (p : Program) (pc : Nat) :
    (m.goto p pc).phase = .running ∨ (m.goto p pc).phase = .halted := by
  unfold goto
  dsimp only
  split
  · exact .inl rfl
  · exact .inr rfl

/-- What is granted fails only where a label is missing. -/
theorem phase_grant_cases (m : Machine) (p : Program) (request : Request) :
    (∃ l, request = .jump l ∧ p.findLabel l = none ∧
      (m.grant p request).FailedFor (.unresolvedLabel l)) ∨
    (m.grant p request).phase = .running ∨ (m.grant p request).phase = .halted := by
  cases request with
  | proceed => exact .inr (phase_goto_cases _ _ _)
  | jump l =>
    rw [grant]
    cases hl : p.findLabel l with
    | none => exact .inl ⟨l, rfl, hl, failedFor_fail _ _⟩
    | some i => exact .inr (phase_goto_cases _ _ _)
  | stop => exact .inr (.inr rfl)
  | store address slot => exact .inr (phase_goto_cases _ _ _)
  | emit line => exact .inr (phase_goto_cases _ _ _)

/-- An instruction that is dispatched fails by itself, or at a label that is missing, or not at
all. -/
theorem phase_dispatch_cases (m : Machine) (p : Program) (i : Instruction) :
    (∃ fault, (i.exec m.memory m.stack).outcome = .error fault ∧
      (m.dispatch p i).FailedFor fault) ∨
    (∃ l, (i.exec m.memory m.stack).outcome = .ok (.jump l) ∧ p.findLabel l = none ∧
      (m.dispatch p i).FailedFor (.unresolvedLabel l)) ∨
    (m.dispatch p i).phase = .running ∨ (m.dispatch p i).phase = .halted := by
  unfold dispatch
  dsimp only
  cases houtcome : (i.exec m.memory m.stack).outcome with
  | error fault => exact .inl ⟨fault, rfl, failedFor_fail _ _⟩
  | ok request =>
    rcases phase_grant_cases
        { m with steps := m.steps + 1, stack := (i.exec m.memory m.stack).stack }
      p request with ⟨l, rfl, hl, hgrant⟩ | hgrant
    · exact .inr (.inl ⟨l, rfl, hl, hgrant⟩)
    · exact .inr (.inr hgrant)

/-- An instruction that fails leaves the stack it has taken its operands from, is counted, and
changes nothing else. -/
theorem dispatch_of_failed {i : Instruction} {fault : Fault}
    (h : (m.dispatch p i).FailedFor fault) :
    m.dispatch p i =
      { m with steps := m.steps + 1, stack := (i.exec m.memory m.stack).stack }.fail fault := by
  rcases phase_dispatch_cases m p i with
    ⟨fault', houtcome, hfailed⟩ | ⟨l, houtcome, hl, hfailed⟩ | hphase | hphase
  · obtain rfl := hfailed.unique h
    simp only [dispatch, houtcome]
  · obtain rfl := hfailed.unique h
    simp only [dispatch, houtcome, grant, hl]
  · cases hphase.symm.trans h.1
  · cases hphase.symm.trans h.1

/-- Control can pass from the instruction at `pc` to `pc'`: the next place, or the one behind the
label that the instruction jumps to. -/
def Leads (p : Program) (pc pc' : Nat) : Prop :=
  pc' = pc + 1 ∨
    ∃ i l j, p[pc]? = some i ∧ i.jumpLabel? = some l ∧ p.findLabel l = some j ∧ pc' = j + 1

/-- What an instruction asks for fails, is the end of the run, or sends the machine where control
can pass. -/
theorem grant_cases {i : Instruction} {memory : Memory} {stack : Stack} {request : Request}
    (hdue : p[m.pc]? = some i) (hrequest : (i.exec memory stack).outcome = .ok request) :
    (∃ fault, (m.grant p request).FailedFor fault) ∨
    (i = .stop ∧ (m.grant p request).phase = .halted ∧ (m.grant p request).pc = m.pc) ∨
    ∃ m' pc, Leads p m.pc pc ∧ m.grant p request = goto m' p pc := by
  rcases Instruction.exec_ok_cases hrequest with
    rfl | ⟨l, hl, rfl⟩ | ⟨rfl, rfl⟩ | ⟨a, slot, -, rfl⟩ | ⟨a, -, rfl⟩
  · exact .inr (.inr ⟨m, _, .inl rfl, rfl⟩)
  · rw [grant]
    cases hfound : p.findLabel l with
    | none => exact .inl ⟨_, failedFor_fail _ _⟩
    | some j => exact .inr (.inr ⟨m, _, .inr ⟨i, l, j, hdue, hl, hfound, rfl⟩, rfl⟩)
  · exact .inr (.inl ⟨rfl, rfl, rfl⟩)
  · exact .inr (.inr ⟨m.write a slot, _, .inl rfl, rfl⟩)
  · exact .inr (.inr ⟨m.emit _, _, .inl rfl, rfl⟩)

/-- A step fails, is a `stop`, or goes where control can pass. -/
theorem step_cases {i : Instruction} (hrunning : m.phase = .running) (hdue : p[m.pc]? = some i) :
    (∃ fault, (m.step p).FailedFor fault) ∨
    (i = .stop ∧ (m.step p).phase = .halted ∧ (m.step p).pc = m.pc) ∨
    ∃ m' pc, Leads p m.pc pc ∧ m.step p = goto m' p pc := by
  rw [step_of_due hrunning hdue, dispatch]
  cases houtcome : (i.exec m.memory m.stack).outcome with
  | error fault => exact .inl ⟨fault, failedFor_fail _ _⟩
  | ok request =>
    exact grant_cases
      (m := { m with steps := m.steps + 1, stack := (i.exec m.memory m.stack).stack })
      hdue houtcome

/-- What is granted writes at most one line, behind the others. -/
theorem output_grant_grows (m : Machine) (p : Program) (request : Request) :
    m.output.toList <+: (m.grant p request).output.toList := by
  cases request with
  | jump label =>
    rw [grant]
    split <;> exact List.prefix_rfl
  | emit line =>
    refine ⟨[line], ?_⟩
    exact (Array.toList_push ..).symm
  | _ => exact List.prefix_rfl

/-- A step takes back no line of output. -/
theorem output_step_grows (p : Program) (m : Machine) :
    m.output.toList <+: (m.step p).output.toList := by
  unfold step
  split
  · unfold dispatch
    dsimp only
    split
    · exact List.prefix_rfl
    · rename_i request _
      exact output_grant_grows { m with steps := m.steps + 1, stack := _ } p request
  · exact List.prefix_rfl
  · exact List.prefix_rfl

/-- The result is not that the run has reached a step limit. -/
def HasNoLimitFault (m : Machine) : Prop :=
  ∀ l, m.result? ≠ some (.error (.stepLimitExceeded l))

/-- Going somewhere is no fault. -/
theorem hasNoLimitFault_goto (m : Machine) (p : Program) (pc : Nat) :
    (m.goto p pc).HasNoLimitFault := by
  intro l
  unfold goto
  dsimp only
  split <;> simp

/-- No instruction reports a step limit. -/
theorem ne_limit_of_exec {i : Instruction} {memory : Memory} {stack : Stack} {fault : Fault}
    (h : (i.exec memory stack).outcome = .error fault) (l : Nat) :
    fault ≠ .stepLimitExceeded l := by
  intro hlimit
  obtain (hop | ⟨_, _, hop⟩) | ⟨-, hop⟩ | ⟨_, _, -, hop⟩ := Instruction.exec_error_cases h
  all_goals
    rw [hop] at hlimit
    cases hlimit

/-- What is granted reports no step limit. -/
theorem hasNoLimitFault_grant (m : Machine) (p : Program) (request : Request) :
    (m.grant p request).HasNoLimitFault := by
  cases request with
  | jump l =>
    rw [grant]
    split
    · exact hasNoLimitFault_goto _ _ _
    · intro l' h
      cases h
  | stop =>
    intro l h
    cases h
  | proceed => exact hasNoLimitFault_goto _ _ _
  | store address slot => exact hasNoLimitFault_goto _ _ _
  | emit line => exact hasNoLimitFault_goto _ _ _

/-- A dispatch reports no step limit. -/
theorem hasNoLimitFault_dispatch (m : Machine) (p : Program) (i : Instruction) :
    (m.dispatch p i).HasNoLimitFault := by
  unfold dispatch
  dsimp only
  split
  · rename_i fault hfault
    intro l h
    exact ne_limit_of_exec hfault l (Except.error.inj (Option.some.inj h))
  · exact hasNoLimitFault_grant _ _ _

/-- A step reports no step limit. -/
theorem HasNoLimitFault.step (h : m.HasNoLimitFault) : (m.step p).HasNoLimitFault := by
  unfold Machine.step
  split
  · exact hasNoLimitFault_dispatch _ _ _
  · intro l hl
    cases hl
  · exact h

/-! ## Phase and result -/

/-- The phase that belongs to a result. -/
def Phase.ofResult : Option (Except Fault Unit) → Phase
  | none => .running
  | some (.ok ()) => .halted
  | some (.error _) => .failed

/-- The phase of the machine is the one that belongs to its result. -/
def Consistent (m : Machine) : Prop := m.phase = Phase.ofResult m.result?

/-- Going somewhere sets the phase and the result together. -/
theorem consistent_goto (m : Machine) (p : Program) (pc : Nat) : (m.goto p pc).Consistent := by
  unfold Consistent goto
  dsimp only
  split <;> rfl

/-- What is granted sets the phase and the result together. -/
theorem consistent_grant (m : Machine) (p : Program) (request : Request) :
    (m.grant p request).Consistent := by
  cases request with
  | jump l =>
    rw [grant]
    split
    · exact consistent_goto _ _ _
    · rfl
  | stop => rfl
  | proceed => exact consistent_goto _ _ _
  | store address slot => exact consistent_goto _ _ _
  | emit line => exact consistent_goto _ _ _

/-- A step keeps the phase and the result in agreement. -/
theorem Consistent.step (h : m.Consistent) : (m.step p).Consistent := by
  unfold Machine.step
  split
  · unfold dispatch
    dsimp only
    split
    · rfl
    · exact consistent_grant _ _ _
  · rfl
  · exact h

/-- A machine has halted exactly if its result is that of a run without a fault. -/
theorem Consistent.halted_iff (h : m.Consistent) :
    m.phase = .halted ↔ m.result? = some (.ok ()) := by
  rw [h]
  rcases m.result? with _ | _ | _ <;> simp [Phase.ofResult]

/-- A machine has failed exactly if its result is a fault. -/
theorem Consistent.failed_iff (h : m.Consistent) :
    m.phase = .failed ↔ ∃ fault, m.result? = some (.error fault) := by
  rw [h]
  rcases m.result? with _ | _ | _ <;> simp [Phase.ofResult]

/-- A machine is running exactly if it has no result. -/
theorem Consistent.running_iff (h : m.Consistent) : m.phase = .running ↔ m.result? = none := by
  rw [h]
  rcases m.result? with _ | _ | _ <;> simp [Phase.ofResult]

/-! ## Many steps -/

/-- A machine that is not running stays as it is. -/
theorem resume_of_ne_running (h : m.phase ≠ .running) (n : Nat) : m.resume p n = m := by
  cases n with
  | zero => rfl
  | succ n => rw [resume, if_neg h]

/-- The first of several steps is a step. -/
theorem resume_succ (p : Program) (n : Nat) (m : Machine) :
    m.resume p (n + 1) = (m.step p).resume p n := by
  rw [resume]
  split
  · rfl
  · rename_i h
    rw [step_of_ne_running h, resume_of_ne_running h]

/-- What holds of a machine and is kept by a step holds after any number of steps. -/
theorem resume_invariant {P : Machine → Prop} (hstep : ∀ m, P m → P (m.step p)) (n : Nat)
    (h : P m) : P (m.resume p n) := by
  induction n generalizing m with
  | zero => exact h
  | succ n ih =>
    rw [resume_succ]
    exact ih (hstep m h)

/-- Resuming twice is resuming for both numbers together. -/
theorem resume_add (p : Program) (a b : Nat) (m : Machine) :
    m.resume p (a + b) = (m.resume p a).resume p b := by
  induction a generalizing m with
  | zero => rw [Nat.zero_add, resume]
  | succ a ih => rw [Nat.succ_add, resume_succ, resume_succ, ih]

/-- No more instructions are counted than steps are taken. -/
theorem steps_resume_le (p : Program) (n : Nat) (m : Machine) :
    (m.resume p n).steps ≤ m.steps + n := by
  induction n generalizing m with
  | zero => exact Nat.le_refl _
  | succ n ih =>
    rw [resume_succ]
    have hstep := steps_step_le p m
    have hrest := ih (m.step p)
    omega

/-- While an instruction is due, every step so far was counted. -/
theorem steps_resume_of_running {n : Nat} (h : (m.resume p n).phase = .running) :
    (m.resume p n).steps = m.steps + n := by
  induction n generalizing m with
  | zero => rfl
  | succ n ih =>
    rw [resume_succ] at h ⊢
    rw [ih h]
    have hrunning : (m.step p).phase = .running := by
      refine Decidable.byContradiction fun hne => hne ?_
      rwa [resume_of_ne_running hne] at h
    have hstep := (steps_step_of_running hrunning).2
    omega

/-- A machine that is running has been running before. -/
theorem running_of_resume {j n : Nat} (h : (m.resume p n).phase = .running) (hj : j ≤ n) :
    (m.resume p j).phase = .running := by
  refine Decidable.byContradiction fun hne => hne ?_
  rwa [← Nat.add_sub_cancel' hj, resume_add, resume_of_ne_running hne] at h

/-- No number of steps takes back a line of output. -/
theorem output_resume_grows (p : Program) (n : Nat) (m : Machine) :
    m.output.toList <+: (m.resume p n).output.toList :=
  resume_invariant (P := fun m' => m.output.toList <+: m'.output.toList)
    (fun m' h => h.trans (output_step_grows p m')) n List.prefix_rfl

/-! ## Slices -/

/-- A machine that is not running stays as it is. -/
theorem runSlice_of_ne_running (h : m.phase ≠ .running) (n : Nat) :
    m.runSlice p limit n = m := by
  cases limit with
  | none => exact resume_of_ne_running h n
  | some l =>
    unfold runSlice
    dsimp only
    rw [resume_of_ne_running h, if_neg fun hboth => h hboth.1]

/-- Instructions that the limit leaves room for may be run first. -/
theorem runSlice_resume {a : Nat} (h : ∀ l ∈ limit, m.steps + a ≤ l) (n : Nat) :
    m.runSlice p limit (a + n) = (m.resume p a).runSlice p limit n := by
  cases limit with
  | none => exact resume_add p a n m
  | some l =>
    have hroom : m.steps + a ≤ l := h l rfl
    have hsplit : min (a + n) (l - m.steps) = a + min n (l - m.steps - a) := by omega
    unfold runSlice
    dsimp only
    rw [hsplit, resume_add]
    by_cases hrunning : (m.resume p a).phase = .running
    · rw [steps_resume_of_running hrunning, Nat.sub_add_eq]
    · rw [resume_of_ne_running hrunning, resume_of_ne_running hrunning]

/-- What holds of a machine, is kept by a step and holds of a machine that fails holds after a
slice. -/
theorem runSlice_invariant {P : Machine → Prop} (hstep : ∀ m, P m → P (m.step p))
    (hfail : ∀ m fault, P m → P (m.fail fault)) (limit : Option Nat) (n : Nat) (h : P m) :
    P (m.runSlice p limit n) := by
  cases limit with
  | none => exact resume_invariant hstep n h
  | some l =>
    have hresume : P (m.resume p (min n (l - m.steps))) := resume_invariant hstep _ h
    unfold runSlice
    dsimp only
    split
    · exact hfail _ _ hresume
    · exact hresume

/-- A run is the same in one slice and in two: the first slice stops early, uses the limit up or
leaves some of it for the second one. -/
theorem runSlice_add (p : Program) (limit : Option Nat) (a b : Nat) (m : Machine) :
    m.runSlice p limit (a + b) = (m.runSlice p limit a).runSlice p limit b := by
  cases limit with
  | none => exact resume_add p a b m
  | some l =>
    have hsplit : min (a + b) (l - m.steps) =
        min a (l - m.steps) + (min (a + b) (l - m.steps) - min a (l - m.steps)) := by omega
    unfold runSlice
    dsimp only
    rw [hsplit, resume_add]
    generalize hfirst : m.resume p (min a (l - m.steps)) = m₁
    by_cases hrunning : m₁.phase = .running
    · have hsteps : m₁.steps = m.steps + min a (l - m.steps) := by
        rw [← hfirst] at hrunning ⊢
        exact steps_resume_of_running hrunning
      by_cases hlimit : l ≤ m₁.steps
      · have hnone : min (a + b) (l - m.steps) - min a (l - m.steps) = 0 := by omega
        have hfail : (m₁.fail (.stepLimitExceeded l)).phase ≠ .running := nofun
        rw [hnone, resume, if_pos ⟨hrunning, hlimit⟩, resume_of_ne_running hfail,
          if_neg fun hboth => hfail hboth.1]
      · have hrest : min (a + b) (l - m.steps) - min a (l - m.steps) = min b (l - m₁.steps) := by
          omega
        have hno : ¬(m₁.phase = .running ∧ l ≤ m₁.steps) := fun hboth => hlimit hboth.2
        rw [hrest, if_neg hno]
    · have hstay : ∀ n, m₁.resume p n = m₁ := resume_of_ne_running hrunning
      have hno : ¬(m₁.phase = .running ∧ l ≤ m₁.steps) := fun hboth => hrunning hboth.1
      rw [hstay, if_neg hno, hstay, if_neg hno]

/-! ## Runs in lockstep -/

/-- A relation of the runs of two programs, the second one `k` instructions ahead in its count: each
step keeps it, it tells whether the machines are running, and so does reaching a limit. -/
structure Lockstep (R : Machine → Machine → Prop) (k : Nat) (p p' : Program) : Prop where
  running : ∀ {m m' : Machine}, R m m' → (m'.phase = .running ↔ m.phase = .running)
  steps : ∀ {m m' : Machine}, R m m' → m'.steps = m.steps + k
  step : ∀ {m m' : Machine}, R m m' → R (m.step p) (m'.step p')
  limit : ∀ {m m' : Machine}, R m m' → ∀ l,
    R (m.fail (.stepLimitExceeded l)) (m'.fail (.stepLimitExceeded (l + k)))

namespace Lockstep

variable {R : Machine → Machine → Prop} {k : Nat} {p' : Program} {m' : Machine}

/-- A change to machines that commutes with steps keeps the runs in lockstep. -/
theorem of_map {change : Machine → Machine}
    (hrunning : ∀ m, (change m).phase = .running ↔ m.phase = .running)
    (hsteps : ∀ m, (change m).steps = m.steps)
    (hstep : ∀ m, (change m).step p' = change (m.step p))
    (hlimit : ∀ m l,
      (change m).fail (.stepLimitExceeded l) = change (m.fail (.stepLimitExceeded l))) :
    Lockstep (fun m m' => m' = change m) 0 p p' where
  running := by
    rintro m _ rfl
    exact hrunning m
  steps := by
    rintro m _ rfl
    exact hsteps m
  step := by
    rintro m _ rfl
    exact hstep m
  limit := by
    rintro m _ rfl l
    exact hlimit m l

/-- Runs in lockstep are related after any number of steps. -/
theorem resume (h : Lockstep R k p p') (hm : R m m') (n : Nat) :
    R (m.resume p n) (m'.resume p' n) := by
  induction n generalizing m m' with
  | zero => exact hm
  | succ n ih =>
    rw [resume_succ, resume_succ]
    exact ih (h.step hm)

/-- Limits that are as far apart as the counts are reached at the same moment. -/
theorem runSlice (h : Lockstep R k p p') (hm : R m m') (limit : Option Nat) (n : Nat) :
    R (m.runSlice p limit n) (m'.runSlice p' (limit.map (· + k)) n) := by
  cases limit with
  | none => exact h.resume hm n
  | some l =>
    have hleft : l + k - m'.steps = l - m.steps := by
      rw [h.steps hm]
      omega
    rw [Option.map_some]
    unfold Machine.runSlice
    dsimp only
    rw [hleft]
    have hafter := h.resume hm (min n (l - m.steps))
    have hiff : ((m'.resume p' (min n (l - m.steps))).phase = .running ∧
        l + k ≤ (m'.resume p' (min n (l - m.steps))).steps) ↔
        (m.resume p (min n (l - m.steps))).phase = .running ∧
          l ≤ (m.resume p (min n (l - m.steps))).steps := by
      rw [h.running hafter, h.steps hafter, Nat.add_le_add_iff_right]
    simp only [hiff]
    split
    · exact h.limit hafter l
    · exact hafter

/-- With equal counts the limits are the same. -/
theorem runSlice_same (h : Lockstep R 0 p p') (hm : R m m') (limit : Option Nat) (n : Nat) :
    R (m.runSlice p limit n) (m'.runSlice p' limit n) := by
  have hsame : limit.map (· + 0) = limit := by cases limit <;> rfl
  have hboth := h.runSlice hm limit n
  rwa [hsame] at hboth

end Lockstep

/-! ## The end of a run -/

/-- The run of a program that is started on `m` ends in `m'`; without a limit it need not end. -/
def Ends (p : Program) (limit : Option Nat) (m m' : Machine) : Prop :=
  ∃ n, (m.start p).runSlice p limit n = m' ∧ m'.phase ≠ .running

/-- At every moment of a run the phase and the result agree. -/
theorem consistent_runSlice (p : Program) (limit : Option Nat) (n : Nat) (m : Machine) :
    ((m.start p).runSlice p limit n).Consistent :=
  runSlice_invariant (P := Consistent) (fun _ h => h.step) (fun _ _ _ => rfl) limit n
    (consistent_goto _ p 0)

/-- At the end of a run the phase and the result agree. -/
theorem Ends.consistent {final : Machine} (h : Ends p limit m final) : final.Consistent := by
  obtain ⟨n, rfl, -⟩ := h
  exact consistent_runSlice p limit n m

/-- A run that has ended stays as it is. -/
theorem Ends.eventually {m' : Machine} (h : Ends p limit m m') :
    ∃ n, ∀ k, (m.start p).runSlice p limit (n + k) = m' := by
  obtain ⟨n, hn, hended⟩ := h
  refine ⟨n, fun k => ?_⟩
  rw [runSlice_add, hn, runSlice_of_ne_running hended]

/-- A run has one end. -/
theorem Ends.unique {final final' : Machine} (h : Ends p limit m final)
    (h' : Ends p limit m final') : final = final' := by
  obtain ⟨n, hn⟩ := h.eventually
  obtain ⟨n', hn'⟩ := h'.eventually
  rw [← hn n', Nat.add_comm, hn' n]

/-- Two runs, one of them `k` instructions later, that are related at every moment by what tells
whether they are running: both end or none does, and their ends are related. -/
theorem ends_of_slices {R : Machine → Machine → Prop}
    (hR : ∀ {m m' : Machine}, R m m' → (m'.phase = .running ↔ m.phase = .running)) {k : Nat}
    {p p' : Program} {limit limit' : Option Nat} {m m' : Machine}
    (h : ∀ n, R ((m.start p).runSlice p limit n) ((m'.start p').runSlice p' limit' (k + n))) :
    ((∃ final, Ends p limit m final) ↔ ∃ final', Ends p' limit' m' final') ∧
      ∀ final final', Ends p limit m final → Ends p' limit' m' final' → R final final' := by
  refine ⟨⟨?ends, ?ends'⟩, ?finals⟩
  case ends =>
    rintro ⟨final, n, rfl, hended⟩
    exact ⟨_, k + n, rfl, fun hrunning => hended ((hR (h n)).mp hrunning)⟩
  case ends' =>
    rintro ⟨final', hends⟩
    obtain ⟨n, hn⟩ := hends.eventually
    obtain ⟨-, -, hended⟩ := hends
    refine ⟨_, n, rfl, fun hrunning => hended ?_⟩
    have hrunning' := (hR (h n)).mpr hrunning
    rwa [Nat.add_comm, hn] at hrunning'
  case finals =>
    intro final final' hends hends'
    obtain ⟨n, hn⟩ := hends.eventually
    obtain ⟨n', hn'⟩ := hends'.eventually
    have hboth := h (n + n')
    rwa [hn, show k + (n + n') = n' + (k + n) by omega, hn'] at hboth

/-- Runs in lockstep with the same count are alike at every moment, with the same limit or without
one; both end or none does, and they end alike. -/
theorem Lockstep.runs {R : Machine → Machine → Prop} {p p' : Program} {m m' : Machine}
    (h : Lockstep R 0 p p') (hstart : R (m.start p) (m'.start p')) (limit : Option Nat) :
    (∀ n, R ((m.start p).runSlice p limit n) ((m'.start p').runSlice p' limit n)) ∧
    ((∃ final, Ends p limit m final) ↔ ∃ final', Ends p' limit m' final') ∧
    ∀ final final', Ends p limit m final → Ends p' limit m' final' → R final final' := by
  have hslices := h.runSlice_same hstart limit
  refine ⟨hslices, ends_of_slices h.running (k := 0) fun n => ?_⟩
  rw [Nat.zero_add]
  exact hslices n

/-! ## Runs that stutter -/

/-- A relation of the runs of two programs that tells whether the machines are running: after each
step of the first one and some steps of the second one, at least one, it holds again. -/
structure Stutter (R : Machine → Machine → Prop) (p p' : Program) : Prop where
  running : ∀ {m m' : Machine}, R m m' → (m'.phase = .running ↔ m.phase = .running)
  step : ∀ {m m' : Machine}, R m m' → ∃ k, R (m.step p) ((m'.step p').resume p' k)

namespace Stutter

variable {R : Machine → Machine → Prop} {p' : Program} {m' : Machine}

/-- The second machine is never behind the first one in its number of steps. -/
theorem resume (h : Stutter R p p') (hm : R m m') (n : Nat) :
    ∃ n', n ≤ n' ∧ R (m.resume p n) (m'.resume p' n') := by
  induction n generalizing m m' with
  | zero => exact ⟨0, Nat.le_refl 0, hm⟩
  | succ n ih =>
    obtain ⟨k, hk⟩ := h.step hm
    obtain ⟨n', hle, hn'⟩ := ih hk
    refine ⟨k + n' + 1, by omega, ?_⟩
    rwa [resume_succ, resume_succ, resume_add]

/-- Without a limit both runs end or none does, and they end alike: whichever run has ended, the
other one has ended by the moment at which the two are related. -/
theorem runs (h : Stutter R p p') {k : Nat} (hstart : R (m.start p) ((m'.start p').resume p' k)) :
    ((∃ final, Ends p none m final) ↔ ∃ final', Ends p' none m' final') ∧
      ∀ final final', Ends p none m final → Ends p' none m' final' → R final final' := by
  have hmoments : ∀ n, ∃ n', n ≤ n' ∧
      R ((m.start p).resume p n) ((m'.start p').resume p' (k + n')) := by
    intro n
    obtain ⟨n', hle, hn'⟩ := h.resume hstart n
    exact ⟨n', hle, by rwa [resume_add]⟩
  have hforth :
      ∀ final, Ends p none m final → ∃ final', Ends p' none m' final' ∧ R final final' := by
    rintro final ⟨n, rfl, hended⟩
    obtain ⟨n', -, hn'⟩ := hmoments n
    exact ⟨_, ⟨k + n', rfl, fun hrun => hended ((h.running hn').mp hrun)⟩, hn'⟩
  refine ⟨⟨?ends, ?ends'⟩, ?finals⟩
  case ends =>
    rintro ⟨final, hends⟩
    obtain ⟨final', hends', -⟩ := hforth final hends
    exact ⟨final', hends'⟩
  case ends' =>
    rintro ⟨final', n, rfl, hended⟩
    obtain ⟨n', hle, hn'⟩ := hmoments n
    have hstays : (m'.start p').resume p' (k + n') = (m'.start p').resume p' n := by
      rw [show k + n' = n + (k + n' - n) by omega, resume_add]
      exact resume_of_ne_running hended _
    rw [hstays] at hn'
    exact ⟨_, n, rfl, fun hrun => hended ((h.running hn').mpr hrun)⟩
  case finals =>
    intro final final' hends hends'
    obtain ⟨other, hother, hR⟩ := hforth final hends
    rwa [hends'.unique hother]

end Stutter

/-- A run with a limit ends, and `run` is its end. -/
theorem ends_run (p : Program) (l : Nat) (m : Machine) : Ends p (some l) m (m.run p l) := by
  refine ⟨l, rfl, fun hrunning => ?_⟩
  unfold run runSlice at hrunning
  dsimp only at hrunning
  split at hrunning
  · cases hrunning
  · rename_i hno
    refine hno ⟨hrunning, ?_⟩
    have hsteps := steps_resume_of_running hrunning
    have hzero : (m.start p).steps = 0 := rfl
    omega

end StackMachine.Machine
