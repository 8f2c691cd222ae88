import StackMachine.Proofs.Run

/-!
# Programs behind a prelude

A program runs alike wherever it stands. Behind a prelude without labels of `k` instructions, every
label is found `k` places later (`findLabel_withPrelude`), so a machine that is `k` instructions
later, in its place and in its count (`Later`), stays so with every step (`Later.step`) and through
every slice of a run (`Later.lockstep`). A limit that is `k` higher is reached at the same moment,
and is the only thing that the two runs report differently (`Fault.raise`).

`RunsLater` says this of whole runs: one ends exactly if the other does, and alike.
-/

namespace StackMachine

/-! ## Labels -/

/-- No instruction of the program is a label. -/
def Program.LabelFree (p : Program) : Prop := ∀ id, Instruction.label id ∉ p

namespace Program

variable {p q : Program}

/-- Some instruction of the program jumps to this label. -/
def JumpsTo (p : Program) (l : Int64) : Prop :=
  .jump l ∈ p ∨ .jumpIfNonZero l ∈ p ∨ .jumpIfZero l ∈ p

/-- The jumps of a program are those of its instructions. -/
theorem jumpsTo_of_mem {i : Instruction} {l : Int64} (hi : i ∈ p) (hl : i.jumpLabel? = some l) :
    p.JumpsTo l := by
  cases i with
  | jump l' =>
    cases hl
    exact .inl hi
  | jumpIfNonZero l' =>
    cases hl
    exact .inr (.inl hi)
  | jumpIfZero l' =>
    cases hl
    exact .inr (.inr hi)
  | _ => cases hl

/-- A label is found at its first place. -/
theorem findLabel_eq_some_iff {l : Int64} {j : Nat} :
    p.findLabel l = some j ↔ p[j]? = some (.label l) ∧ ∀ k < j, p[k]? ≠ some (.label l) := by
  rw [findLabel, Array.findIdx?_eq_some_iff_getElem]
  simp only [Instruction.isLabel, beq_iff_eq, Array.getElem?_eq_some_iff, ne_eq, not_exists]
  constructor
  · rintro ⟨hj, hlabel, hfirst⟩
    exact ⟨⟨hj, hlabel⟩, fun k hk _ => hfirst k hk⟩
  · rintro ⟨⟨hj, hlabel⟩, hfirst⟩
    exact ⟨hj, hlabel, fun k hk => hfirst k hk (Nat.lt_trans hk hj)⟩

/-- A label is not found exactly if the program does not have it. -/
theorem findLabel_eq_none_iff {l : Int64} : p.findLabel l = none ↔ .label l ∉ p := by
  rw [findLabel, Array.findIdx?_eq_none_iff]
  simp only [Instruction.isLabel, beq_eq_false_iff_ne]
  constructor
  · exact fun h hl => h _ hl rfl
  · exact fun h i hi hl => h (hl ▸ hi)

/-- A prelude makes a program longer by its size. -/
theorem size_withPrelude (p q : Program) : (p.withPrelude q).size = q.size + p.size :=
  Array.size_append

/-- A prelude without labels moves the place of every label by its size. -/
theorem findLabel_withPrelude (hq : q.LabelFree) (id : Int64) :
    (p.withPrelude q).findLabel id = (p.findLabel id).map (· + q.size) := by
  have hnone : q.findIdx? (·.isLabel id) = none := findLabel_eq_none_iff.mpr (hq id)
  rw [findLabel, withPrelude, Array.findIdx?_append, hnone, Option.none_or, findLabel]

/-- The instructions of a program stand behind its prelude. -/
theorem getElem?_withPrelude (p q : Program) (pc : Nat) :
    (p.withPrelude q)[pc + q.size]? = p[pc]? := by
  rw [withPrelude, Array.getElem?_append_right (Nat.le_add_left ..), Nat.add_sub_cancel]

end Program

/-! ## The later machine -/

/-- The fault as it is reported by a run whose limit is higher by `k`. -/
def Fault.raise (k : Nat) : Fault → Fault
  | .stepLimitExceeded l => .stepLimitExceeded (l + k)
  | fault => fault

/-- A higher limit changes nothing about any other fault. -/
theorem Fault.raise_of_ne_limit {k : Nat} {fault : Fault} (h : ∀ l, fault ≠ .stepLimitExceeded l) :
    fault.raise k = fault := by
  unfold raise
  split
  · exact absurd rfl (h _)
  · rfl

/-- Nor does it change the result of a machine that has not reached a limit. -/
theorem Machine.HasNoLimitFault.raise {m : Machine} (h : m.HasNoLimitFault) (k : Nat) :
    m.result?.map (·.mapError (Fault.raise k)) = m.result? := by
  unfold HasNoLimitFault at h
  rcases hresult : m.result? with _ | fault | result
  · rfl
  · have hne : ∀ l, fault ≠ .stepLimitExceeded l := by
      rintro l rfl
      exact h l hresult
    rw [Option.map_some, Except.mapError, Fault.raise_of_ne_limit hne]
  · rfl

namespace Machine

/-- The machine `m'` is where `m` is, but `k` places and `k` instructions later. The logs of stores
are left out: what comes before may have stored. -/
structure Later (k : Nat) (m m' : Machine) : Prop where
  phase : m'.phase = m.phase
  result : m'.result? = m.result?.map (·.mapError (Fault.raise k))
  pc : m'.pc = m.pc + k
  steps : m'.steps = m.steps + k
  stack : m'.stack = m.stack
  memory : m'.memory = m.memory
  output : m'.output = m.output

namespace Later

variable {p q : Program} {m m' : Machine} {k : Nat}

/-- Both machines are running or none is. -/
theorem phase_eq_running (h : Later k m m') : m'.phase = .running ↔ m.phase = .running := by
  rw [h.phase]

/-- A machine that fails, and one that reports the same as seen from `k` instructions later. -/
theorem fail (h : Later k m m') (fault : Fault) :
    Later k (m.fail fault) (m'.fail (fault.raise k)) :=
  { h with phase := rfl, result := rfl }

/-- Machines that have halted. -/
theorem halt (h : Later k m m') : Later k m.halt m'.halt :=
  { h with phase := rfl, result := rfl }

/-- A place of the program is `k` places later behind the prelude. -/
theorem goto (h : Later q.size m m') (pc : Nat) :
    Later q.size (m.goto p pc) (m'.goto (p.withPrelude q) (pc + q.size)) := by
  have hsize := Program.size_withPrelude p q
  have hinside : pc + q.size < (p.withPrelude q).size ↔ pc < p.size := by omega
  refine { h with pc := rfl, phase := ?_, result := ?_ }
  · simp only [Machine.goto, hinside]
  · rw [(hasNoLimitFault_goto m p pc).raise]
    simp only [Machine.goto, hinside]

/-- Both machines store. -/
theorem write (h : Later k m m') (address : Int64) (slot : Slot) :
    Later k (m.write address slot) (m'.write address slot) :=
  { h with memory := congrArg (·.store address slot) h.memory }

/-- Both machines write a line. -/
theorem emit (h : Later k m m') (line : String) : Later k (m.emit line) (m'.emit line) :=
  { h with output := congrArg (·.push line) h.output }

/-- Both machines grant the request. -/
theorem grant (hq : q.LabelFree) (h : Later q.size m m') (request : Request) :
    Later q.size (m.grant p request) (m'.grant (p.withPrelude q) request) := by
  have hnext : m'.pc + 1 = m.pc + 1 + q.size := by
    rw [h.pc]
    omega
  cases request with
  | proceed =>
    rw [Machine.grant, Machine.grant, hnext]
    exact h.goto _
  | jump label =>
    rw [Machine.grant, Machine.grant, Program.findLabel_withPrelude hq]
    cases p.findLabel label with
    | none => exact h.fail (.unresolvedLabel label)
    | some i =>
      have hbehind : i + q.size + 1 = i + 1 + q.size := by omega
      rw [Option.map_some]
      dsimp only
      rw [hbehind]
      exact h.goto _
  | stop => exact h.halt
  | store address slot =>
    rw [Machine.grant, Machine.grant, hnext]
    exact (h.write address slot).goto _
  | emit line =>
    rw [Machine.grant, Machine.grant, hnext]
    exact (h.emit line).goto _

/-- Both machines dispatch the instruction: it has the same effect on machines that have counted it
and taken the operands off. -/
theorem dispatch (hq : q.LabelFree) (h : Later q.size m m') (i : Instruction) :
    Later q.size (m.dispatch p i) (m'.dispatch (p.withPrelude q) i) := by
  have hcounted : m'.steps + 1 = m.steps + 1 + q.size := by
    rw [h.steps]
    omega
  have hsame : i.exec m'.memory m'.stack = i.exec m.memory m.stack := by rw [h.memory, h.stack]
  unfold Machine.dispatch
  dsimp only
  rw [hsame]
  have hafter :
      Later q.size { m with steps := m.steps + 1, stack := (i.exec m.memory m.stack).stack }
      { m' with steps := m'.steps + 1, stack := (i.exec m.memory m.stack).stack } :=
    { h with steps := hcounted, stack := rfl }
  cases houtcome : (i.exec m.memory m.stack).outcome with
  | error fault =>
    have hfail := hafter.fail fault
    rwa [Fault.raise_of_ne_limit (ne_limit_of_exec houtcome)] at hfail
  | ok request => exact hafter.grant hq request

/-- Both machines take the same step. -/
theorem step (hq : q.LabelFree) (h : Later q.size m m') :
    Later q.size (m.step p) (m'.step (p.withPrelude q)) := by
  have hdue : (p.withPrelude q)[m'.pc]? = p[m.pc]?.map id := by
    rw [h.pc, Program.getElem?_withPrelude, Option.map_id_apply]
  exact step_related id h h.phase_eq_running hdue h.halt fun i _ => h.dispatch hq i

/-- The two runs go in lockstep. -/
theorem lockstep (hq : q.LabelFree) : Lockstep (Later q.size) q.size p (p.withPrelude q) where
  running := phase_eq_running
  steps := Later.steps
  step := Later.step hq
  limit := fun h l => h.fail (.stepLimitExceeded l)

end Later

/-! ## Whole runs -/

/-- The run of `p'` on `m'` is the run of `p` on `m`, `k` instructions later. -/
structure RunsLater (k : Nat) (p p' : Program) (limit limit' : Option Nat) (m m' : Machine) :
    Prop where
  /-- At every moment the machines agree. -/
  slices : ∀ n, Later k ((m.start p).runSlice p limit n) ((m'.start p').runSlice p' limit' (k + n))
  /-- Without a limit they report the same. -/
  unlimited : limit = none → ∀ n, ((m'.start p').runSlice p' limit' (k + n)).result? =
    ((m.start p).runSlice p limit n).result?
  /-- Both runs end or none does. -/
  ends : (∃ final, Ends p limit m final) ↔ ∃ final', Ends p' limit' m' final'
  /-- And they end alike. -/
  finals : ∀ final final', Ends p limit m final → Ends p' limit' m' final' → Later k final final'

/-- A run without a limit reports none. -/
theorem hasNoLimitFault_unlimited (p : Program) (n : Nat) (m : Machine) :
    ((m.start p).runSlice p none n).HasNoLimitFault :=
  resume_invariant (P := HasNoLimitFault) (fun _ h => h.step) n (hasNoLimitFault_goto _ p 0)

/-- It is enough that the runs agree at every moment. -/
theorem RunsLater.of_slices {k : Nat} {p p' : Program} {limit limit' : Option Nat} {m m' : Machine}
    (h : ∀ n, Later k ((m.start p).runSlice p limit n)
      ((m'.start p').runSlice p' limit' (k + n))) :
    RunsLater k p p' limit limit' m m' := by
  obtain ⟨hends, hfinals⟩ := ends_of_slices (fun hlater => hlater.phase_eq_running) h
  refine ⟨h, ?_, hends, hfinals⟩
  rintro rfl n
  rw [(h n).result, (hasNoLimitFault_unlimited p n m).raise]

end Machine

end StackMachine
