import Mathlib.Order.Monotone.Basic
import StackMachine.Proofs.Limit
import StackMachine.Proofs.Reuse

/-!
# Programs that only jump forward

A run without a limit need not end, and nothing about a machine gets smaller with every step in
general. It does in a program all of whose jumps go to labels behind them (`Program.Forward`):
control then only passes to later places (`Leads.lt_of_forward`), so as long as the machine is
running the place rises with each step (`pc_lt_step`), and by `n` steps at least by `n`
(`pc_add_le_pc_resume`). There are only as many places as the program has instructions, so the run
ends before it has dispatched more (`forward_ends`).

A jump that has no label goes nowhere and does not matter; of several labels with one id, the first
counts, and so it has to stand behind every jump to it.
-/

namespace StackMachine

/-- Every jump goes to a label behind it, if the program has the label. -/
def Program.Forward (p : Program) : Prop :=
  ∀ i < p.size, ∀ l ∈ p[i]?.bind Instruction.jumpLabel?, ∀ j ∈ p.findLabel l, i < j

/-- Only the label of the jump is tried, not every integer. -/
instance (p : Program) : Decidable p.Forward :=
  @Nat.decidableBallLT p.size _ fun _ _ => Option.decidableForallMem _

namespace Machine

variable {p : Program} {m : Machine}

/-- Control passes to a later place. -/
theorem Leads.lt_of_forward {pc pc' : Nat} (h : Leads p pc pc') (hp : p.Forward)
    (hpc : pc < p.size) : pc < pc' := by
  rcases h with rfl | ⟨i, l, j, hdue, hjump, hfound, rfl⟩
  · exact pc.lt_succ_self
  · have hl : l ∈ p[pc]?.bind Instruction.jumpLabel? := by
      rw [hdue]
      exact hjump
    exact Nat.lt_succ_of_lt (hp pc hpc l hl j hfound)

/-- A step after which the machine is still running has gone to a later place. -/
theorem pc_lt_step (hp : p.Forward) (hpc : m.pc < p.size) (h : (m.step p).phase = .running) :
    m.pc < (m.step p).pc := by
  have hrunning := (steps_step_of_running h).1
  rcases step_cases hrunning (Array.getElem?_eq_getElem hpc) with
    ⟨fault, hfail⟩ | ⟨-, hhalted, -⟩ | ⟨m', pc, hleads, hgoto⟩
  · cases hfail.1.symm.trans h
  · cases hhalted.symm.trans h
  · rw [hgoto]
    exact hleads.lt_of_forward hp hpc

/-- As long as the machine is running, its place rises at least as fast as its steps are taken. -/
theorem pc_add_le_pc_resume (hp : p.Forward) {a n : Nat}
    (h : ((m.start p).resume p (a + n)).phase = .running) :
    ((m.start p).resume p a).pc + n ≤ ((m.start p).resume p (a + n)).pc := by
  induction n with
  | zero => exact Nat.le_refl _
  | succ n ih =>
    have hbefore : ((m.start p).resume p (a + n)).phase = .running := running_of_resume h (by omega)
    rw [← Nat.add_assoc a, resume_succ'] at h ⊢
    have hrises := pc_lt_step hp (pc_lt_of_resume_running hbefore) h
    have hsofar := ih hbefore
    omega

/-- No place is due twice. -/
theorem strictMonoOn_pc (hp : p.Forward) (m : Machine) :
    StrictMonoOn (fun n => ((m.start p).resume p n).pc)
      {n | ((m.start p).resume p n).phase = .running} := by
  intro a _ b hb hlt
  have hb : ((m.start p).resume p (a + (b - a))).phase = .running := by
    rwa [Nat.add_sub_cancel' hlt.le]
  have hrises := pc_add_le_pc_resume hp hb
  rw [Nat.add_sub_cancel' hlt.le] at hrises
  show ((m.start p).resume p a).pc < ((m.start p).resume p b).pc
  omega

/-- A program that only jumps forward ends from every memory, also without a limit: it comes to a
result, no place is due at two moments of the run, and so there are at most as many steps as
instructions. -/
theorem forward_ends {p : Program} (hp : p.Forward) (m : Machine) :
    ∃ final, Ends p none m final ∧ (∃ result, final.result? = some result) ∧
      Set.InjOn (fun n => ((m.start p).resume p n).pc)
        {n | ((m.start p).resume p n).phase = .running} ∧
      final.steps ≤ p.size := by
  have hended : ((m.start p).resume p p.size).phase ≠ .running := by
    intro hrunning
    have hpc := pc_lt_of_resume_running hrunning
    rw [← Nat.zero_add p.size] at hrunning
    have hrises := pc_add_le_pc_resume hp hrunning
    rw [Nat.zero_add] at hrises
    omega
  have hends : Ends p none m ((m.start p).resume p p.size) := ⟨p.size, rfl, hended⟩
  refine ⟨_, hends, hends.exists_result, (strictMonoOn_pc hp m).injOn, ?_⟩
  exact (steps_resume_le p p.size (m.start p)).trans_eq (Nat.zero_add p.size)

/-- Two labels with one id and a jump that has none: the program ends from every memory, whatever is
in the cell that it tests. It is the first label that has to stand behind the jumps to it. -/
theorem forward_ends_skipping :
    let p : Program :=
      #[.loadMemory 1, .jumpIfZero 2, .jump 2, .output 7, .label 2, .jump 9, .label 2]
    p.Forward ∧ ¬Program.Forward #[.label 2, .jump 2, .label 2] ∧
    ∀ memory, ∃ final, Ends p none { memory } final ∧ (∃ result, final.result? = some result) ∧
      final.steps ≤ 7 := by
  intro p
  have hp : p.Forward := by decide +kernel
  refine ⟨hp, by decide +kernel, fun memory => ?_⟩
  obtain ⟨final, hends, hresult, -, hsteps⟩ := forward_ends hp { memory }
  exact ⟨final, hends, hresult, hsteps⟩

end Machine

end StackMachine
