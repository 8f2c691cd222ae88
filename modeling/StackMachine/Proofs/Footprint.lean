import StackMachine.Proofs.Prelude

/-!
# The memory that a program touches

The addresses that a program can read (`Program.reads`) and write (`Program.writes`) are operands of
its instructions. A run depends on no other cell than the first ones: machines that agree on them
(`Agree`) take the same steps (`Agree.step`), so they stay alike through every slice of a run, with
a limit or without, and end alike if they end at all. And a run changes no other cell than the
second ones: what it does to memory is what its stores do (`Stores`), each at an address that the
program writes.

`runs_agree` says both of whole runs.
-/

namespace StackMachine

/-! ## What an instruction reads and writes -/

namespace Instruction

/-- The address that an instruction reads. -/
def readAddress? : Instruction → Option Int64
  | loadMemory a | output a => some a
  | _ => none

/-- The address that an instruction writes. -/
def writeAddress? : Instruction → Option Int64
  | storeMemory a => some a
  | _ => none

/-- An instruction sees of memory the cell that it reads, and no other. -/
theorem exec_congr {i : Instruction} {memory memory' : Memory}
    (h : ∀ a ∈ i.readAddress?, memory.load a = memory'.load a) (stack : Stack) :
    i.exec memory stack = i.exec memory' stack := by
  cases i with
  | loadMemory a =>
    have hcell : memory.load a = memory'.load a := h a rfl
    rw [exec, exec, hcell]
  | output a =>
    have hcell : memory.load a = memory'.load a := h a rfl
    rw [exec, exec, hcell]
  | _ => rfl

end Instruction

namespace Program

/-- The addresses that a program reads: the operands of its loads and outputs. -/
def reads (p : Program) : List Int64 := p.toList.filterMap Instruction.readAddress?

/-- The addresses that a program writes: the operands of its stores. -/
def writes (p : Program) : List Int64 := p.toList.filterMap Instruction.writeAddress?

/-- An address that some instruction reads is read by the program. -/
theorem mem_reads_of_mem {p : Program} {i : Instruction} {a : Int64} (hi : i ∈ p)
    (ha : a ∈ i.readAddress?) : a ∈ p.reads :=
  List.mem_filterMap.mpr ⟨i, Array.mem_toList_iff.mpr hi, ha⟩

/-- An address that some instruction writes is written by the program. -/
theorem mem_writes_of_mem {p : Program} {i : Instruction} {a : Int64} (hi : i ∈ p)
    (ha : a ∈ i.writeAddress?) : a ∈ p.writes :=
  List.mem_filterMap.mpr ⟨i, Array.mem_toList_iff.mpr hi, ha⟩

end Program

/-! ## Machines that agree -/

namespace Machine

/-- The machines are alike but for memory, and of memory the cells at these addresses are. -/
structure Agree (addresses : List Int64) (m m' : Machine) : Prop where
  phase : m.phase = m'.phase
  result : m.result? = m'.result?
  pc : m.pc = m'.pc
  steps : m.steps = m'.steps
  stack : m.stack = m'.stack
  output : m.output = m'.output
  stores : m.stores = m'.stores
  memory : ∀ a ∈ addresses, m.memory.load a = m'.memory.load a

namespace Agree

variable {p : Program} {addresses : List Int64} {m m' : Machine}

/-- Machines that agree fail alike. -/
theorem fail (h : Agree addresses m m') (fault : Fault) :
    Agree addresses (m.fail fault) (m'.fail fault) :=
  { h with phase := rfl, result := rfl }

/-- Machines that agree halt alike. -/
theorem halt (h : Agree addresses m m') : Agree addresses m.halt m'.halt :=
  { h with phase := rfl, result := rfl }

/-- Machines that agree go on alike. -/
theorem goto (h : Agree addresses m m') (pc : Nat) : Agree addresses (m.goto p pc) (m'.goto p pc) :=
  { h with pc := rfl, phase := rfl, result := rfl }

/-- A store gives both cells the same content. -/
theorem write (h : Agree addresses m m') (a : Int64) (slot : Slot) :
    Agree addresses (m.write a slot) (m'.write a slot) := by
  refine { h with stores := congrArg (·.push (a, slot)) h.stores, memory := fun b hb => ?_ }
  show (m.memory.store a slot).load b = (m'.memory.store a slot).load b
  rw [Memory.load_store, Memory.load_store, h.memory b hb]

/-- Machines that agree write the same line. -/
theorem emit (h : Agree addresses m m') (line : String) :
    Agree addresses (m.emit line) (m'.emit line) :=
  { h with output := congrArg (·.push line) h.output }

/-- A request is granted alike. -/
theorem grant (h : Agree addresses m m') (request : Request) :
    Agree addresses (m.grant p request) (m'.grant p request) := by
  cases request with
  | proceed =>
    rw [Machine.grant, Machine.grant, h.pc]
    exact h.goto _
  | jump label =>
    rw [Machine.grant, Machine.grant]
    cases p.findLabel label with
    | none => exact h.fail _
    | some i => exact h.goto _
  | stop => exact h.halt
  | store a slot =>
    rw [Machine.grant, Machine.grant, h.pc]
    exact (h.write a slot).goto _
  | emit line =>
    rw [Machine.grant, Machine.grant, h.pc]
    exact (h.emit line).goto _

/-- An instruction of the program, which reads where the memories agree, does the same to both. -/
theorem dispatch (h : Agree p.reads m m') {i : Instruction} (hi : i ∈ p) :
    Agree p.reads (m.dispatch p i) (m'.dispatch p i) := by
  have hsame : i.exec m.memory m.stack = i.exec m'.memory m'.stack := by
    rw [h.stack]
    exact Instruction.exec_congr (fun a ha => h.memory a (Program.mem_reads_of_mem hi ha)) _
  unfold Machine.dispatch
  dsimp only
  rw [hsame]
  have hafter : Agree p.reads
      { m with steps := m.steps + 1, stack := (i.exec m'.memory m'.stack).stack }
      { m' with steps := m'.steps + 1, stack := (i.exec m'.memory m'.stack).stack } :=
    { h with steps := congrArg (· + 1) h.steps, stack := rfl }
  cases (i.exec m'.memory m'.stack).outcome with
  | error fault => exact hafter.fail fault
  | ok request => exact hafter.grant request

/-- Both machines take the same step. -/
theorem step (h : Agree p.reads m m') : Agree p.reads (m.step p) (m'.step p) := by
  have hdue : p[m'.pc]? = p[m.pc]?.map id := by rw [h.pc, Option.map_id_apply]
  exact step_related id h (by rw [h.phase]) hdue h.halt
    fun _ hi => h.dispatch (Array.mem_of_getElem? hi)

/-- Machines that agree run in lockstep. -/
theorem lockstep (p : Program) : Lockstep (Agree p.reads) 0 p p where
  running := fun h => by rw [h.phase]
  steps := fun h => h.steps.symm
  step := step
  limit := fun h l => h.fail _

/-- With the same limit or without one, both machines run alike. -/
theorem runSlice (h : Agree p.reads m m') (limit : Option Nat) (n : Nat) :
    Agree p.reads (m.runSlice p limit n) (m'.runSlice p limit n) :=
  (lockstep p).runSlice_same h limit n

end Agree

/-! ## The stores of a run -/

/-- What has become of memory and of the log of stores between two machines: these stores, each at
an address that the program writes. -/
structure Stores (p : Program) (log : List (Int64 × Slot)) (m m' : Machine) : Prop where
  stores : m'.stores = m.stores ++ log.toArray
  memory : m'.memory = m.memory.storeAll log
  writes : ∀ s ∈ log, s.1 ∈ p.writes

namespace Stores

variable {p : Program} {m m' m'' : Machine} {log log' : List (Int64 × Slot)}

/-- No store, where memory and its log are as they were. -/
theorem nil (hstores : m'.stores = m.stores) (hmemory : m'.memory = m.memory) : Stores p [] m m' :=
  ⟨by simp [hstores], hmemory, nofun⟩

/-- Stores one after the other. -/
theorem append (h : Stores p log m m') (h' : Stores p log' m' m'') :
    Stores p (log ++ log') m m'' := by
  refine ⟨?_, ?_, fun s hs => ?_⟩
  · simp [h'.stores, h.stores]
  · rw [h'.memory, h.memory, Memory.storeAll_append]
  · obtain hs | hs := List.mem_append.mp hs
    · exact h.writes s hs
    · exact h'.writes s hs

/-- An address outside of those that the program writes keeps its content. -/
theorem load_of_not_mem (h : Stores p log m m') {a : Int64} (ha : a ∉ p.writes) :
    m'.memory.load a = m.memory.load a := by
  have hnone : log.reverse.find? (·.1 == a) = none := by
    rw [List.find?_eq_none]
    intro s hs hsa
    exact ha (beq_iff_eq.mp hsa ▸ h.writes s (List.mem_reverse.mp hs))
  rw [h.memory, Memory.load_storeAll, hnone]
  rfl

/-- The stores that a request comes to. -/
theorem grant {request : Request} (h : ∀ a slot, request = .store a slot → a ∈ p.writes)
    (m : Machine) : ∃ log, Stores p log m (m.grant p request) := by
  cases request with
  | jump label =>
    rw [Machine.grant]
    split <;> exact ⟨[], nil rfl rfl⟩
  | store a slot =>
    refine ⟨[(a, slot)], Array.push_eq_append, rfl, fun s hs => ?_⟩
    rw [List.mem_singleton.mp hs]
    exact h a slot rfl
  | _ => exact ⟨[], nil rfl rfl⟩

/-- A step stores where the instruction that is due says, if it stores at all. -/
theorem step (p : Program) (m : Machine) : ∃ log, Stores p log m (m.step p) := by
  by_cases hrunning : m.phase = .running
  · cases hdue : p[m.pc]? with
    | none =>
      rw [step_of_end hrunning hdue]
      exact ⟨[], nil rfl rfl⟩
    | some i =>
      rw [step_of_due hrunning hdue]
      unfold dispatch
      dsimp only
      cases houtcome : (i.exec m.memory m.stack).outcome with
      | error fault => exact ⟨[], nil rfl rfl⟩
      | ok request =>
        have hwrites : ∀ a slot, request = .store a slot → a ∈ p.writes := by
          rintro a slot rfl
          obtain rfl := Instruction.exec_ok_store houtcome
          exact Program.mem_writes_of_mem (Array.mem_of_getElem? hdue) rfl
        obtain ⟨log, hlog⟩ :=
          grant hwrites { m with steps := m.steps + 1, stack := (i.exec m.memory m.stack).stack }
        exact ⟨log, hlog.stores, hlog.memory, hlog.writes⟩
  · rw [step_of_ne_running hrunning]
    exact ⟨[], nil rfl rfl⟩

/-- The stores of many steps. -/
theorem resume (p : Program) (n : Nat) (m : Machine) : ∃ log, Stores p log m (m.resume p n) := by
  refine resume_invariant (P := fun m' => ∃ log, Stores p log m m') ?_ n ⟨[], nil rfl rfl⟩
  rintro m' ⟨log, hlog⟩
  obtain ⟨log', hlog'⟩ := step p m'
  exact ⟨log ++ log', hlog.append hlog'⟩

/-- All that a run does to memory are its stores, wherever it is stopped. -/
theorem runSlice (p : Program) (limit : Option Nat) (n : Nat) (m : Machine) :
    ∃ log, Stores p log m (m.runSlice p limit n) := by
  cases limit with
  | none => exact resume p n m
  | some l =>
    obtain ⟨log, hlog⟩ := resume p (min n (l - m.steps)) m
    unfold Machine.runSlice
    dsimp only
    split
    · exact ⟨log, hlog.stores, hlog.memory, hlog.writes⟩
    · exact ⟨log, hlog⟩

/-- The stores of a run that has ended. -/
theorem of_ends {limit : Option Nat} (h : Ends p limit m m') : ∃ log, Stores p log m m' := by
  obtain ⟨n, rfl, -⟩ := h
  obtain ⟨log, hlog⟩ := runSlice p limit n (m.start p)
  exact ⟨log, hlog.stores, hlog.memory, hlog.writes⟩

/-- After the same stores, any two memories agree at the addresses of these. -/
theorem load_of_mem {m₁ m₁' : Machine} (h : Stores p log m m') (h₁ : Stores p log m₁ m₁')
    {s : Int64 × Slot} (hs : s ∈ log) : m'.memory.load s.1 = m₁'.memory.load s.1 := by
  have hsome : (log.reverse.find? (·.1 == s.1)).isSome = true :=
    List.find?_isSome.mpr ⟨s, List.mem_reverse.mpr hs, beq_self_eq_true _⟩
  obtain ⟨last, hlast⟩ := Option.isSome_iff_exists.mp hsome
  rw [h.memory, h₁.memory, Memory.load_storeAll, Memory.load_storeAll, hlast]
  rfl

end Stores

/-- A run depends on the cells that the program reads and changes those that it writes. Two machines
whose memories agree where the program reads agree at every moment of their runs, on all but other
cells; so both runs end or none does. They make the same stores, and memory agrees afterwards also
at the addresses of these. And whatever memory a run starts with, and however it ends, an address
that the program does not write holds what it held. -/
theorem runs_agree {p : Program} {memory₁ memory₂ : Memory}
    (h : ∀ a ∈ p.reads, memory₁.load a = memory₂.load a) (limit : Option Nat) (m : Machine) :
    let m₁ : Machine := { m with memory := memory₁ }
    let m₂ : Machine := { m with memory := memory₂ }
    (∀ n, Agree p.reads ((m₁.start p).runSlice p limit n) ((m₂.start p).runSlice p limit n)) ∧
    ((∃ final₁, Ends p limit m₁ final₁) ↔ ∃ final₂, Ends p limit m₂ final₂) ∧
    (∀ final₁ final₂, Ends p limit m₁ final₁ → Ends p limit m₂ final₂ →
      Agree p.reads final₁ final₂ ∧
      ∃ log, Stores p log m₁ final₁ ∧ Stores p log m₂ final₂ ∧
        ∀ s ∈ log, final₁.memory.load s.1 = final₂.memory.load s.1) ∧
    ∀ memory final, Ends p limit { m with memory } final →
      ∀ a ∉ p.writes, final.memory.load a = memory.load a := by
  intro m₁ m₂
  have hstart : Agree p.reads (m₁.start p) (m₂.start p) :=
    ⟨rfl, rfl, rfl, rfl, rfl, rfl, rfl, h⟩
  have hslices : ∀ n, Agree p.reads ((m₁.start p).runSlice p limit n)
      ((m₂.start p).runSlice p limit n) := hstart.runSlice limit
  have hshifted : ∀ n, Agree p.reads ((m₁.start p).runSlice p limit n)
      ((m₂.start p).runSlice p limit (0 + n)) := fun n => by
    rw [Nat.zero_add]
    exact hslices n
  obtain ⟨hends, hfinals⟩ := ends_of_slices (Agree.lockstep p).running hshifted
  refine ⟨hslices, hends, fun final₁ final₂ hend₁ hend₂ => ?_, fun memory final hend a ha => ?_⟩
  · have hagree := hfinals final₁ final₂ hend₁ hend₂
    obtain ⟨log, hlog⟩ := Stores.of_ends hend₁
    obtain ⟨log', hlog'⟩ := Stores.of_ends hend₂
    have hlogs : m.stores ++ log.toArray = m.stores ++ log'.toArray :=
      hlog.stores.symm.trans (hagree.stores.trans hlog'.stores)
    obtain rfl : log = log' := by simpa [← Array.toList_inj] using hlogs
    exact ⟨hagree, log, hlog, hlog', fun s hs => hlog.load_of_mem hlog' hs⟩
  · obtain ⟨log, hlog⟩ := Stores.of_ends hend
    exact hlog.load_of_not_mem ha

/-- A program that copies a cell, writes it out and then fails, on memories that differ in the cell
it copies to and in one that it does not know of. -/
theorem runs_agree_copy :
    let p : Program := #[.loadMemory 1, .storeMemory 2, .output 1, .add]
    let memory₁ := Memory.empty.storeAll [(1, some (.int 7)), (5, some (.str "x"))]
    let memory₂ := Memory.empty.storeAll [(1, some (.int 7)), (2, some (.int 9))]
    let final₁ := run p 10 { memory := memory₁ }
    let final₂ := run p 10 { memory := memory₂ }
    final₁.FailedFor .stackUnderflow ∧ final₁.output = #["7"] ∧ Agree [1, 1] final₁ final₂ ∧
    final₁.memory.load 5 = some (.str "x") ∧ final₂.memory.load 5 = none ∧
    ∃ log, Stores p log { memory := memory₁ } final₁ ∧ Stores p log { memory := memory₂ } final₂ ∧
      ∀ s ∈ log, final₁.memory.load s.1 = final₂.memory.load s.1 := by
  intro p memory₁ memory₂ final₁ final₂
  have hreads : ∀ a ∈ p.reads, memory₁.load a = memory₂.load a := by
    intro a ha
    have hone : a ∈ [1, 1] := ha
    obtain rfl : a = 1 := by simpa using hone
    simp [memory₁, memory₂, Memory.load_storeAll]
  obtain ⟨-, -, hfinals, hkept⟩ := runs_agree hreads (some 10) {}
  obtain ⟨hagree, hlog⟩ := hfinals final₁ final₂ (ends_run p 10 _) (ends_run p 10 _)
  have hwrites : (5 : Int64) ∉ p.writes := by decide
  refine ⟨by decide +kernel, by decide +kernel, hagree, ?_, ?_, hlog⟩
  · rw [hkept memory₁ final₁ (ends_run p 10 _) 5 hwrites]
    simp [memory₁, Memory.load_storeAll]
  · rw [hkept memory₂ final₂ (ends_run p 10 _) 5 hwrites]
    simp [memory₂, Memory.load_storeAll]

end Machine

end StackMachine
