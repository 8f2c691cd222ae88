import Mathlib.Data.List.Forall2
import StackMachine.Proofs.Run

/-!
# Machines that are used again

A machine is left by a run with whatever stack, count and phase the run came to, and the next run
sees nothing of them: it starts by clearing the stack and the count, and is given its memory. What
stays are the logs. So a run on a used machine is the run on a new one, behind the logs of the runs
before (`Machine.behind`): each step commutes with putting logs in front (`step_behind`), and the
two runs are in lockstep (`lockstep_behind`).

The history of a machine is the list of its jobs, each of them done to its end (`Served`). Whatever
the history is, the next job is done as by a new machine, and ends halted or failed as its result
says (`served_like_new`).
-/

namespace StackMachine

namespace Machine

/-! ## Earlier logs -/

/-- The machine with the logs of an earlier one in front of its own. -/
def behind (m earlier : Machine) : Machine :=
  { m with output := earlier.output ++ m.output, stores := earlier.stores ++ m.stores }

/-- A store goes behind the earlier ones. -/
theorem write_behind (m earlier : Machine) (a : Int64) (slot : Slot) :
    (m.behind earlier).write a slot = (m.write a slot).behind earlier := by
  simp [write, behind]

/-- A line goes behind the earlier ones. -/
theorem emit_behind (m earlier : Machine) (line : String) :
    (m.behind earlier).emit line = (m.emit line).behind earlier := by
  simp [emit, behind]

/-- What is granted adds to the logs and does not read them. -/
theorem grant_behind (m earlier : Machine) (p : Program) (request : Request) :
    (m.behind earlier).grant p request = (m.grant p request).behind earlier := by
  cases request with
  | proceed | stop => rfl
  | jump l =>
    rw [grant, grant]
    cases p.findLabel l <;> rfl
  | store a slot =>
    rw [grant, grant, write_behind]
    rfl
  | emit line =>
    rw [grant, grant, emit_behind]
    rfl

/-- A dispatch adds to the logs and does not read them. -/
theorem dispatch_behind (m earlier : Machine) (p : Program) (i : Instruction) :
    (m.behind earlier).dispatch p i = (m.dispatch p i).behind earlier := by
  have hexec :
      i.exec (m.behind earlier).memory (m.behind earlier).stack = i.exec m.memory m.stack := rfl
  unfold dispatch
  dsimp only
  rw [hexec]
  cases (i.exec m.memory m.stack).outcome with
  | error fault => rfl
  | ok request => exact grant_behind { m with steps := m.steps + 1, stack := _ } earlier p request

/-- A step adds to the logs and does not read them. -/
theorem step_behind (m earlier : Machine) (p : Program) :
    (m.behind earlier).step p = (m.step p).behind earlier :=
  step_related (R := fun m m' => m' = m.behind earlier) id rfl Iff.rfl Option.map_id_apply.symm rfl
    fun i _ => dispatch_behind m earlier p i

/-- The two runs go in lockstep. -/
theorem lockstep_behind (earlier : Machine) (p : Program) :
    Lockstep (fun m m' => m' = m.behind earlier) 0 p p :=
  .of_map (fun _ => Iff.rfl) (fun _ => rfl) (fun m => step_behind m earlier p) fun _ _ => rfl

/-- A run clears all that is left of the runs before, but for their logs. -/
theorem start_behind (m : Machine) (p : Program) (memory : Memory) :
    start { m with memory } p = (start { memory } p).behind m := by
  simp [start, goto, behind]

/-! ## How a run ends -/

variable {p : Program} {m : Machine} {limit : Option Nat}

/-- A run that has ended has come to a result. -/
theorem Ends.exists_result {final : Machine} (h : Ends p limit m final) :
    ∃ result, final.result? = some result := by
  have hconsistent := h.consistent
  obtain ⟨n, -, hended⟩ := h
  exact Option.ne_none_iff_exists'.mp (mt hconsistent.running_iff.mpr hended)

end Machine

/-! ## Histories -/

open Machine

/-- A run that a machine is asked for: a program, the memory to start on and the limit, if there is
one. -/
structure Job where
  program : Program
  memory : Memory
  limit : Option Nat

/-- The machine does the job and is this one afterwards. -/
def Job.Ends (job : Job) (m final : Machine) : Prop :=
  Machine.Ends job.program job.limit { m with memory := job.memory } final

/-- The machines that have done these jobs, one after another, since they were new. -/
inductive Served : List Job → Machine → Prop
  | new : Served [] {}
  | again {history : List Job} {m final : Machine} {job : Job} :
    Served history m → job.Ends m final → Served (history ++ [job]) final

/-- A job is done as by a new machine, behind the logs of the one that does it. -/
theorem Job.runs_behind (job : Job) (m : Machine) :
    (∀ n, (start { m with memory := job.memory } job.program).runSlice job.program job.limit n =
      ((start { memory := job.memory } job.program).runSlice job.program job.limit n).behind m) ∧
    ((∃ new, job.Ends {} new) ↔ ∃ final, job.Ends m final) ∧
    ∀ new final, job.Ends {} new → job.Ends m final → final = new.behind m :=
  (lockstep_behind m job.program).runs (start_behind m job.program job.memory) job.limit

/-- The output of a machine is what new machines write for each of its jobs. -/
theorem Served.output_eq {history : List Job} {m : Machine} (h : Served history m) :
    ∃ news, List.Forall₂ (fun job new => job.Ends {} new) history news ∧
      m.output.toList = news.flatMap (·.output.toList) := by
  induction h with
  | new => exact ⟨[], .nil, rfl⟩
  | @again history m final job _ hfinal ih =>
    obtain ⟨news, hnews, houtput⟩ := ih
    obtain ⟨-, hends, hfinals⟩ := job.runs_behind m
    obtain ⟨new, hnew⟩ := hends.mpr ⟨final, hfinal⟩
    refine ⟨news ++ [new], List.rel_append hnews (.cons hnew .nil), ?_⟩
    rw [hfinals new final hnew hfinal]
    simp [behind, houtput]

/-- A used machine is as good as a new one. Whatever jobs it has done, however they ended, its next
job goes through the same moments as on a new machine, behind the earlier logs, and is done exactly
if a new machine does it. Then the result, the phase, the count, the stack and the memory are those
of the new machine, and the output is the earlier output and then that of the new machine, where the
earlier output is made up in the same way. There is a result, and the machine has halted or failed
as it says. -/
theorem served_like_new {history : List Job} {m : Machine} (h : Served history m) (job : Job) :
    (∀ n, (start { m with memory := job.memory } job.program).runSlice job.program job.limit n =
      ((start { memory := job.memory } job.program).runSlice job.program job.limit n).behind m) ∧
    ((∃ new, job.Ends {} new) ↔ ∃ final, job.Ends m final) ∧
    (∀ new final, job.Ends {} new → job.Ends m final →
      final.result? = new.result? ∧ final.phase = new.phase ∧ final.steps = new.steps ∧
      final.stack = new.stack ∧ final.memory = new.memory ∧
      final.output.toList = m.output.toList ++ new.output.toList) ∧
    (∃ news, List.Forall₂ (fun job new => job.Ends {} new) history news ∧
      m.output.toList = news.flatMap (·.output.toList)) ∧
    ∀ final, job.Ends m final →
      (∃ result, final.result? = some result) ∧
      (final.phase = .halted ↔ final.result? = some (.ok ())) ∧
      (final.phase = .failed ↔ ∃ fault, final.result? = some (.error fault)) := by
  obtain ⟨hslices, hends, hfinals⟩ := job.runs_behind m
  refine ⟨hslices, hends, fun new final hnew hfinal => ?_, h.output_eq, fun final hfinal =>
    ⟨hfinal.exists_result, hfinal.consistent.halted_iff, hfinal.consistent.failed_iff⟩⟩
  rw [hfinals new final hnew hfinal]
  exact ⟨rfl, rfl, rfl, rfl, rfl, Array.toList_append⟩

/-- A machine that has failed in a sum and then at a limit, with a value left on its stack: its next
job starts on an empty stack, counts from zero and halts, and the line of the first job comes before
its own. -/
theorem served_like_new_after_faults : ∃ m final,
    Served [⟨#[.pushInt 7, .storeMemory 1, .output 1, .add], .empty, none⟩,
      ⟨#[.pushInt 1, .pushInt 2], .empty, some 1⟩] m ∧
    m.FailedFor (.stepLimitExceeded 1) ∧ m.stack = [some (.int 1)] ∧
    Job.Ends ⟨#[.output 1, .pushInt 3], Memory.empty.store 1 (some (.str "a")), none⟩ m final ∧
    final.result? = some (.ok ()) ∧ final.phase = .halted ∧ final.steps = 2 ∧
    final.stack = [some (.int 3)] ∧ final.output.toList = ["7", "a"] := by
  obtain ⟨m₁, hm₁, houtput₁⟩ : ∃ m₁,
      Job.Ends ⟨#[.pushInt 7, .storeMemory 1, .output 1, .add], .empty, none⟩ {} m₁ ∧
      m₁.output = #["7"] := ⟨_, ⟨4, rfl, nofun⟩, rfl⟩
  obtain ⟨m, hm, hphase, hstack, houtput⟩ : ∃ m,
      Job.Ends ⟨#[.pushInt 1, .pushInt 2], .empty, some 1⟩ m₁ m ∧
      m.FailedFor (.stepLimitExceeded 1) ∧ m.stack = [some (.int 1)] ∧ m.output = m₁.output :=
    ⟨_, ends_run _ 1 _, ⟨rfl, rfl⟩, rfl, rfl⟩
  obtain ⟨new, hnew, hresult, hsteps, hstack₁, houtput₂⟩ : ∃ new,
      Job.Ends ⟨#[.output 1, .pushInt 3], Memory.empty.store 1 (some (.str "a")), none⟩ {} new ∧
      new.result? = some (.ok ()) ∧ new.steps = 2 ∧ new.stack = [some (.int 3)] ∧
      new.output = #["a"] := ⟨_, ⟨2, rfl, nofun⟩, rfl, rfl, rfl, rfl⟩
  have hserved := (Served.new.again hm₁).again hm
  obtain ⟨-, hends, hfinals, -, hresults⟩ := served_like_new hserved _
  obtain ⟨final, hfinal⟩ := hends.mp ⟨new, hnew⟩
  obtain ⟨hresult', -, hsteps', hstack', -, houtput'⟩ := hfinals new final hnew hfinal
  obtain ⟨-, hhalted, -⟩ := hresults final hfinal
  rw [hresult] at hresult'
  refine ⟨m, final, hserved, hphase, hstack, hfinal, hresult', hhalted.mpr hresult',
    hsteps'.trans hsteps, hstack'.trans hstack₁, ?_⟩
  rw [houtput', houtput, houtput₁, houtput₂]
  rfl

end StackMachine
