import Mathlib.Logic.Function.Iterate
import Mathlib.Order.Nat
import StackMachine.Proofs.Run

/-!
# A step limit cuts a run off

`turn` is one turn of the loop that a run goes through: an instruction that is due is dispatched,
unless the limit is used up. The turns of a started machine come to the same end as `run` and `Ends`
do (`ends_iff_turns`), and a limit changes nothing about the run but where it is cut off
(`run_cut_off`): a run that ends within the limit is the run without a limit, and any other one is
that run after as many instructions as the limit allows, with the limit reported as its failure
(`CutOff`). So what is shown of runs without a limit has one more case with a limit
(`Ends.limit_cases`, `Ends.of_room`).

What makes the count exact is that a started machine that is running has an instruction to dispatch
(`pc_lt_of_resume_running`), so the number of instructions is the number of turns.
-/

namespace StackMachine.Machine

variable {p : Program} {m : Machine}

/-! ## The instruction that is due -/

/-- A machine that goes on stands at an instruction of the program. -/
theorem pc_lt_of_goto_running {pc : Nat} (h : (m.goto p pc).phase = .running) :
    (m.goto p pc).pc < p.size := by
  unfold goto at h
  dsimp only at h
  split at h
  · assumption
  · cases h

/-- A machine that goes on as it was granted stands at an instruction of the program. -/
theorem pc_lt_of_grant_running {request : Request} (h : (m.grant p request).phase = .running) :
    (m.grant p request).pc < p.size := by
  cases request with
  | proceed => exact pc_lt_of_goto_running h
  | jump label =>
    rw [grant] at h ⊢
    split at h
    · exact pc_lt_of_goto_running h
    · cases h
  | stop => cases h
  | store address slot => exact pc_lt_of_goto_running h
  | emit line => exact pc_lt_of_goto_running h

/-- A step leaves a running machine at an instruction of the program. -/
theorem pc_lt_of_step_running (h : (m.step p).phase = .running) : (m.step p).pc < p.size := by
  have hrunning := (steps_step_of_running h).1
  cases hdue : p[m.pc]? with
  | none =>
    rw [step_of_end hrunning hdue] at h
    cases h
  | some i =>
    rw [step_of_due hrunning hdue] at h ⊢
    unfold dispatch at h ⊢
    dsimp only at h ⊢
    cases houtcome : (i.exec m.memory m.stack).outcome with
    | error fault =>
      rw [houtcome] at h
      cases h
    | ok request =>
      rw [houtcome] at h
      exact pc_lt_of_grant_running h

/-- A started machine that is running stands at an instruction of the program. -/
theorem pc_lt_of_resume_running {n : Nat} (h : ((m.start p).resume p n).phase = .running) :
    ((m.start p).resume p n).pc < p.size :=
  resume_invariant (P := fun m' => m'.phase = .running → m'.pc < p.size)
    (fun _ _ => pc_lt_of_step_running) n pc_lt_of_goto_running h

/-- The last of several steps is a step. -/
theorem resume_succ' (p : Program) (n : Nat) (m : Machine) :
    m.resume p (n + 1) = (m.resume p n).step p := by
  rw [resume_add, resume_succ, resume]

/-- As long as a started machine is running, each turn counts one instruction, and so does the turn
that ends it. -/
theorem steps_resume_start {n : Nat}
    (h : ∀ j < n, ((m.start p).resume p j).phase = .running) :
    ((m.start p).resume p n).steps = n := by
  cases n with
  | zero => rfl
  | succ n =>
    have hrunning := h n n.lt_succ_self
    have hsteps : ((m.start p).resume p n).steps = 0 + n := steps_resume_of_running hrunning
    have hdue := Array.getElem?_eq_getElem (pc_lt_of_resume_running hrunning)
    rw [resume_succ', step_of_due hrunning hdue, steps_dispatch]
    omega

/-- The run without a limit ends after as many instructions as it counts, and not before: these lead
to the first moment at which the machine is no longer running. -/
theorem Ends.exact {final : Machine} (h : Ends p none m final) :
    (m.start p).resume p final.steps = final ∧
      ∀ n < final.steps, ((m.start p).resume p n).phase = .running := by
  obtain ⟨n, hn, hended⟩ := h
  have hn : (m.start p).resume p n = final := hn
  have hstops : ∃ k, ((m.start p).resume p k).phase ≠ .running := ⟨n, hn ▸ hended⟩
  obtain ⟨k, hk, hbefore⟩ : ∃ k, ((m.start p).resume p k).phase ≠ .running ∧
      ∀ j < k, ((m.start p).resume p j).phase = .running :=
    ⟨Nat.find hstops, Nat.find_spec hstops, fun j hj => not_not.mp (Nat.find_min hstops hj)⟩
  have hle : k ≤ n := by
    refine Nat.le_of_not_lt fun hlt => hended ?_
    rw [← hn]
    exact hbefore n hlt
  have hfinal : (m.start p).resume p k = final := by
    rw [← hn, ← Nat.add_sub_cancel' hle, resume_add, resume_of_ne_running hk]
  have hcount : final.steps = k := hfinal ▸ steps_resume_start hbefore
  rw [hcount]
  exact ⟨hfinal, hbefore⟩

/-! ## The run with a limit -/

/-- A run that is not over when the limit is used up fails for it. -/
theorem run_of_running {l : Nat} (h : ((m.start p).resume p l).phase = .running) :
    m.run p l = ((m.start p).resume p l).fail (.stepLimitExceeded l) := by
  have hall : min l (l - (m.start p).steps) = l := Nat.min_self l
  have hsteps : ((m.start p).resume p l).steps = 0 + l := steps_resume_of_running h
  rw [run, runSlice, hall]
  exact if_pos ⟨h, by omega⟩

/-- A run that is over by then is as it would be without a limit. -/
theorem run_of_ended {l : Nat} (h : ((m.start p).resume p l).phase ≠ .running) :
    m.run p l = (m.start p).resume p l := by
  have hall : min l (l - (m.start p).steps) = l := Nat.min_self l
  rw [run, runSlice, hall]
  exact if_neg fun hboth => h hboth.1

/-- A limit leaves the output as it is after so many instructions. -/
theorem output_run (p : Program) (l : Nat) (m : Machine) :
    (m.run p l).output = ((m.start p).resume p l).output := by
  by_cases h : ((m.start p).resume p l).phase = .running
  · rw [run_of_running h]
    rfl
  · rw [run_of_ended h]

/-- A run counts no more instructions than its limit. -/
theorem steps_run_le (p : Program) (l : Nat) (m : Machine) : (m.run p l).steps ≤ l := by
  have hsteps : ((m.start p).resume p l).steps ≤ 0 + l := steps_resume_le p l _
  by_cases h : ((m.start p).resume p l).phase = .running
  · rw [run_of_running h]
    show ((m.start p).resume p l).steps ≤ l
    omega
  · rw [run_of_ended h]
    omega

/-- A run with a limit has one end. -/
theorem ends_limit_iff {l : Nat} {final : Machine} :
    Ends p (some l) m final ↔ final = m.run p l := by
  constructor
  · exact fun h => h.unique (ends_run p l m)
  · rintro rfl
    exact ends_run p l m

/-- A run ends where its limit cuts it off, or as it would without one. -/
theorem Ends.limit_cases {limit : Option Nat} {final : Machine} (h : Ends p limit m final) :
    (∃ l, limit = some l ∧ ((m.start p).resume p l).phase = .running ∧
      final = ((m.start p).resume p l).fail (.stepLimitExceeded l)) ∨
    Ends p none m final ∧ ∀ l ∈ limit, final.steps ≤ l := by
  cases limit with
  | none => exact .inr ⟨h, nofun⟩
  | some l =>
    have hrun := ends_limit_iff.mp h
    rcases Decidable.em (((m.start p).resume p l).phase = .running) with hrunning | hended
    · exact .inl ⟨l, rfl, hrunning, hrun.trans (run_of_running hrunning)⟩
    · refine .inr ⟨⟨l, (hrun.trans (run_of_ended hended)).symm, ?_⟩, ?_⟩
      · rwa [hrun, run_of_ended hended]
      · rintro _ ⟨⟩
        rw [hrun]
        exact steps_run_le p l m

/-- A run without a limit ends where it is started, or with the instruction that it counts last. -/
theorem Ends.last_step {final : Machine} (h : Ends p none m final) :
    final = m.start p ∨ ∃ n, final.steps = n + 1 ∧ ((m.start p).resume p n).phase = .running ∧
      ((m.start p).resume p n).step p = final := by
  obtain ⟨hexact, hbefore⟩ := h.exact
  cases hsteps : final.steps with
  | zero =>
    rw [hsteps] at hexact
    exact .inl hexact.symm
  | succ n =>
    rw [hsteps, resume_succ'] at hexact
    exact .inr ⟨n, rfl, hbefore n (hsteps ▸ n.lt_succ_self), hexact⟩

/-- A run that fails has come to its limit, or fails with the instruction that it counts last; a
machine that is only started has not failed. -/
theorem Ends.failing_step {limit : Option Nat} {final : Machine} {fault : Fault}
    (h : Ends p limit m final) (hfault : final.FailedFor fault) :
    (∃ l, limit = some l ∧ fault = .stepLimitExceeded l ∧ final.steps = l) ∨
    ∃ n, final.steps = n + 1 ∧ ((m.start p).resume p n).phase = .running ∧
      ((m.start p).resume p n).step p = final := by
  rcases h.limit_cases with ⟨l, hlimit, hrunning, rfl⟩ | ⟨hends, -⟩
  · have hsteps : ((m.start p).resume p l).steps = 0 + l := steps_resume_of_running hrunning
    exact .inl ⟨l, hlimit, hfault.unique (failedFor_fail _ _), hsteps.trans (Nat.zero_add l)⟩
  · rcases hends.last_step with rfl | hlast
    · rcases phase_goto_cases { m with steps := 0, stack := [] } p 0 with hphase | hphase <;>
        cases hphase.symm.trans hfault.1
    · exact .inr hlast

/-- A limit that leaves room for all instructions of a run changes nothing. -/
theorem Ends.of_room {limit : Option Nat} {final : Machine} (h : Ends p none m final)
    (hroom : ∀ l ∈ limit, final.steps ≤ l) : Ends p limit m final := by
  cases limit with
  | none => exact h
  | some l =>
    obtain ⟨hexact, -⟩ := h.exact
    obtain ⟨_, _, hended⟩ := h
    have hl : final.steps ≤ l := hroom l rfl
    have hsame : (m.start p).resume p l = final := by
      rw [← Nat.add_sub_cancel' hl, resume_add, hexact, resume_of_ne_running hended]
    rw [ends_limit_iff, run_of_ended (hsame ▸ hended), hsame]

/-! ## Turns -/

/-- One turn of a run: the instruction that is due is dispatched, unless the limit is used up. -/
def turn (p : Program) (limit : Option Nat) (m : Machine) : Machine :=
  match limit with
  | none => m.step p
  | some l =>
    if m.phase = .running ∧ m.pc < p.size ∧ l ≤ m.steps then m.fail (.stepLimitExceeded l)
    else m.step p

/-- A turn leaves a machine that is not running as it is. -/
theorem turn_of_ne_running {limit : Option Nat} (h : m.phase ≠ .running) : m.turn p limit = m := by
  cases limit with
  | none => exact step_of_ne_running h
  | some l =>
    rw [turn, if_neg fun hall => h hall.1]
    exact step_of_ne_running h

/-- Turns leave a machine that is not running as it is. -/
theorem iterate_turn_of_ne_running {limit : Option Nat} (h : m.phase ≠ .running) (n : Nat) :
    (turn p limit)^[n] m = m :=
  Function.iterate_fixed (turn_of_ne_running h) n

/-- Turns that the limit leaves room for are steps. -/
theorem iterate_turn_start {limit : Option Nat} {n : Nat} (h : ∀ l ∈ limit, n ≤ l) :
    (turn p limit)^[n] (m.start p) = (m.start p).resume p n := by
  induction n with
  | zero => rfl
  | succ n ih =>
    have hroom : ∀ l ∈ limit, n ≤ l := fun l hl => Nat.le_of_succ_le (h l hl)
    rw [Function.iterate_succ_apply', ih hroom, resume_succ']
    cases limit with
    | none => rfl
    | some l =>
      refine if_neg fun hall => ?_
      have hsteps : ((m.start p).resume p n).steps = 0 + n := steps_resume_of_running hall.1
      have hl : n + 1 ≤ l := h l rfl
      have hused := hall.2.2
      omega

/-- After one turn more than the limit allows instructions, the turns have come to the end of the
run. -/
theorem iterate_turn_limit (p : Program) (l : Nat) (m : Machine) :
    (turn p (some l))^[l + 1] (m.start p) = m.run p l := by
  have hroom : ∀ l' ∈ some l, l ≤ l' := fun l' hl => (Option.some.inj hl).le
  rw [Function.iterate_succ_apply', iterate_turn_start hroom]
  by_cases h : ((m.start p).resume p l).phase = .running
  · have hsteps : ((m.start p).resume p l).steps = 0 + l := steps_resume_of_running h
    rw [run_of_running h]
    exact if_pos ⟨h, pc_lt_of_resume_running h, by omega⟩
  · rw [run_of_ended h, turn_of_ne_running h]

/-- The turns of a run end as the run does; more turns change neither of the two ends. -/
theorem ends_iff_turns {limit : Option Nat} {final : Machine} :
    Ends p limit m final ↔
      ∃ n, (turn p limit)^[n] (m.start p) = final ∧ final.phase ≠ .running := by
  cases limit with
  | none =>
    have hsteps : ∀ n, (turn p none)^[n] (m.start p) = (m.start p).runSlice p none n := fun n =>
      iterate_turn_start nofun
    simp only [hsteps]
    rfl
  | some l =>
    rw [ends_limit_iff]
    constructor
    · rintro rfl
      obtain ⟨_, _, hended⟩ := ends_run p l m
      exact ⟨l + 1, iterate_turn_limit p l m, hended⟩
    · rintro ⟨n, hn, hended⟩
      obtain ⟨_, _, hrun⟩ := ends_run p l m
      calc final
        _ = (turn p (some l))^[l + 1] final := (iterate_turn_of_ne_running hended _).symm
        _ = (turn p (some l))^[n] ((turn p (some l))^[l + 1] (m.start p)) := by
          rw [← hn, ← Function.iterate_add_apply, ← Function.iterate_add_apply, Nat.add_comm]
        _ = m.run p l := by rw [iterate_turn_limit, iterate_turn_of_ne_running hrun]

/-! ## Cutting a run off -/

/-- The run with this limit is the run without one, cut off behind its first `l` instructions. -/
structure CutOff (p : Program) (m : Machine) (l : Nat) : Prop where
  /-- The run without a limit goes on behind them. -/
  running : ((m.start p).runSlice p none l).phase = .running
  counted : ((m.start p).runSlice p none l).steps = l
  /-- Nothing is changed but that the limit is reported. -/
  run : m.run p l = ((m.start p).runSlice p none l).fail (.stepLimitExceeded l)

/-- A limit at which the run would go on cuts it off. -/
theorem CutOff.of_running {l : Nat} (h : ((m.start p).resume p l).phase = .running) :
    CutOff p m l := by
  have hsteps : ((m.start p).resume p l).steps = 0 + l := steps_resume_of_running h
  exact ⟨h, hsteps.trans (Nat.zero_add l), run_of_running h⟩

/-- A limit cuts a run off and does nothing else to it. The turns of a run end as the run does; a
run with a limit has one end, at most as many instructions later as the limit says. If the run
without a limit ends then every limit that leaves room for all its instructions gives the same
machine, and every other one cuts it off; if it does not end, every limit does. So a higher limit
only adds lines to the output. -/
theorem run_cut_off (p : Program) (m : Machine) :
    (∀ limit final, Ends p limit m final ↔
      ∃ n, (turn p limit)^[n] (m.start p) = final ∧ final.phase ≠ .running) ∧
    (∀ l final, Ends p (some l) m final ↔ final = m.run p l) ∧
    (∀ l, (m.run p l).steps ≤ l) ∧
    (∀ final, Ends p none m final →
      (m.start p).runSlice p none final.steps = final ∧
      (∀ l, final.steps ≤ l → m.run p l = final) ∧
      ∀ l < final.steps, CutOff p m l) ∧
    ((∀ final, ¬Ends p none m final) → ∀ l, CutOff p m l) ∧
    ∀ l₁ l₂, l₁ ≤ l₂ → (m.run p l₁).output.toList <+: (m.run p l₂).output.toList := by
  refine ⟨fun _ _ => ends_iff_turns, fun _ _ => ends_limit_iff, fun l => steps_run_le p l m, ?ends,
    ?endless, ?output⟩
  case ends =>
    intro final hends
    obtain ⟨hexact, hbefore⟩ := hends.exact
    obtain ⟨_, _, hended⟩ := hends
    refine ⟨hexact, fun l hl => ?_, fun l hl => .of_running (hbefore l hl)⟩
    have hsame : (m.start p).resume p l = final := by
      rw [← Nat.add_sub_cancel' hl, resume_add, hexact, resume_of_ne_running hended]
    rw [run_of_ended (hsame ▸ hended), hsame]
  case endless =>
    intro hendless l
    refine .of_running (Decidable.byContradiction fun hended => ?_)
    exact hendless _ ⟨l, rfl, hended⟩
  case output =>
    intro l₁ l₂ hle
    rw [output_run, output_run, ← Nat.add_sub_cancel' hle, resume_add]
    exact output_resume_grows p _ _

/-- A jump to the label before it is taken for ever. -/
theorem not_ends_self_jump (final : Machine) : ¬Ends #[.label 1, .jump 1] none {} final := by
  rintro ⟨n, rfl, hended⟩
  refine hended (resume_invariant (P := fun m => m.phase = .running ∧ (m.pc = 0 ∨ m.pc = 1)) ?_ n
    ⟨rfl, .inl rfl⟩).1
  rintro m ⟨hrunning, hpc | hpc⟩
  · have hdue : (#[.label 1, .jump 1] : Program)[m.pc]? = some (.label 1) := by rw [hpc]; rfl
    have hnext : m.step #[.label 1, .jump 1] =
        { m with steps := m.steps + 1 }.goto #[.label 1, .jump 1] (m.pc + 1) :=
      step_of_due hrunning hdue
    rw [hnext, hpc]
    exact ⟨rfl, .inr rfl⟩
  · have hdue : (#[.label 1, .jump 1] : Program)[m.pc]? = some (.jump 1) := by rw [hpc]; rfl
    have hlabel : Program.findLabel #[.label 1, .jump 1] 1 = some 0 := by
      rw [Program.findLabel, List.findIdx?_toArray]
      rfl
    have hnext : m.step #[.label 1, .jump 1] =
        { m with steps := m.steps + 1 }.goto #[.label 1, .jump 1] 1 := by
      rw [step_of_due hrunning hdue, dispatch]
      simp only [Instruction.exec, grant, hlabel]
    rw [hnext]
    exact ⟨rfl, .inr rfl⟩

/-- A run that fails with its fourth instruction: with room for four it fails in the same way, with
room for three the line of output is there and the limit is reported. A loop is cut off by every
limit. -/
theorem run_cut_off_at_fault :
    (∃ final, Ends #[.pushInt 7, .storeMemory 1, .output 1, .add] none {} final ∧
      final.FailedFor .stackUnderflow ∧ final.steps = 4 ∧
      run #[.pushInt 7, .storeMemory 1, .output 1, .add] 4 {} = final ∧
      CutOff #[.pushInt 7, .storeMemory 1, .output 1, .add] {} 3 ∧
      (run #[.pushInt 7, .storeMemory 1, .output 1, .add] 3 {}).output = #["7"]) ∧
    (∀ final, ¬Ends #[.label 1, .jump 1] none {} final) ∧
    ∀ l, CutOff #[.label 1, .jump 1] {} l := by
  have hends : Ends #[.pushInt 7, .storeMemory 1, .output 1, .add] none {}
      (resume #[.pushInt 7, .storeMemory 1, .output 1, .add] 4
        (start {} #[.pushInt 7, .storeMemory 1, .output 1, .add])) :=
    ⟨4, rfl, nofun⟩
  obtain ⟨-, -, -, hended, -, -⟩ := run_cut_off #[.pushInt 7, .storeMemory 1, .output 1, .add] {}
  obtain ⟨-, -, -, -, hendless, -⟩ := run_cut_off #[.label 1, .jump 1] {}
  obtain ⟨-, hroom, hcut⟩ := hended _ hends
  refine ⟨⟨_, hends, ⟨rfl, rfl⟩, rfl, hroom 4 (Nat.le_refl 4), hcut 3 (by decide), ?_⟩,
    not_ends_self_jump, hendless not_ends_self_jump⟩
  rw [output_run]
  rfl

end StackMachine.Machine
