import Mathlib.Data.List.Forall2
import StackMachine.Command.Process
import StackMachine.Proofs.History
import StackMachine.Proofs.Relocation

/-!
# The prelude that fills memory

An assembled program is run behind a prelude that stores its parameters and the user's presets. A
prelude of `k` stores (`Program.storing`) is `2 * k` instructions without a label, and after them
the machine is where the program by itself would start on a memory that has the cells already
(`later_storing`). So the whole run is the run on the filled memory, `2 * k` instructions later
(`runsLater_storing`), and a limit that the prelude uses up leaves no output (`run_storing_of_lt`).

What memory the prelude leaves is said without it: an address holds the last preset for it, else the
value of the last parameter there (`bootProgram_runsLater`).
-/

namespace StackMachine

/-! ## Memory after stores -/

/-- Writing changes the memory and the log of stores. -/
theorem Machine.writeAll_eq (m : Machine) (stores : List (Int64 × Slot)) :
    m.writeAll stores =
      { m with memory := m.memory.storeAll stores, stores := m.stores ++ stores.toArray } := by
  induction stores generalizing m with
  | nil => simp [writeAll, Memory.storeAll]
  | cons s stores ih =>
    have hcons : m.writeAll (s :: stores) = (m.write s.1 s.2).writeAll stores := rfl
    rw [hcons, ih]
    simp [write, Memory.storeAll]

/-! ## A program of stores -/

/-- The stores of defined values. -/
def slots (cells : List (Int64 × Value)) : List (Int64 × Slot) := cells.map fun c => (c.1, some c.2)

/-- The program that stores values, each in its cell. -/
def Program.storing (cells : List (Int64 × Value)) : Program :=
  (cells.flatMap fun c => [.push c.2, .storeMemory c.1]).toArray

namespace Program

/-- Stores in two parts are a program in two parts. -/
theorem storing_append (cells cells' : List (Int64 × Value)) :
    storing (cells ++ cells') = storing cells ++ storing cells' := by
  simp [storing]

/-- Each store takes two instructions. -/
theorem size_storing (cells : List (Int64 × Value)) : (storing cells).size = 2 * cells.length := by
  induction cells with
  | nil => rfl
  | cons c cells ih =>
    rw [storing, List.size_toArray] at ih ⊢
    rw [List.flatMap_cons, List.length_append, ih, List.length_cons]
    show 2 + 2 * cells.length = 2 * (cells.length + 1)
    omega

/-- Stores have no label. -/
theorem labelFree_storing (cells : List (Int64 × Value)) : (storing cells).LabelFree := by
  intro id hid
  rw [storing, List.mem_toArray, List.mem_flatMap] at hid
  obtain ⟨⟨address, value⟩, -, hid⟩ := hid
  cases value <;> simp [Instruction.push] at hid

end Program

/-- The first instruction of what is left of a program is due, and the others are left behind it. -/
theorem Program.due_of_drop {p : Program} {pc : Nat} {i : Instruction} {rest : List Instruction}
    (h : p.toList.drop pc = i :: rest) : p[pc]? = some i ∧ p.toList.drop (pc + 1) = rest := by
  constructor
  · rw [← Array.getElem?_toList, ← List.head?_drop, h, List.head?_cons]
  · rw [← List.drop_drop, h, List.drop_one, List.tail_cons]

namespace Machine

variable {p : Program} {m : Machine}

/-- Where there is an instruction, the machine that goes there is running. -/
theorem step_goto {i : Instruction} {pc : Nat} (hdue : p[pc]? = some i) (m : Machine) :
    (m.goto p pc).step p = (m.goto p pc).dispatch p i :=
  step_of_due (if_pos (Array.getElem?_eq_some_iff.mp hdue).1) hdue

/-- An instruction that succeeds leaves its stack, and what it asks for is granted. -/
theorem step_granted {i : Instruction} {stack : Stack} {request : Request} {pc : Nat}
    (hdue : p[pc]? = some i) (hexec : i.exec m.memory m.stack = ⟨stack, .ok request⟩) :
    (m.goto p pc).step p =
      ({ m with steps := m.steps + 1, stack }.goto p pc).grant p request := by
  have hexec' : i.exec (m.goto p pc).memory (m.goto p pc).stack = ⟨stack, .ok request⟩ := hexec
  rw [step_goto hdue, dispatch, hexec']
  rfl

/-- A push, as a step. -/
theorem step_push {v : Value} {pc : Nat} (hdue : p[pc]? = some (.push v)) (m : Machine) :
    (m.goto p pc).step p =
      { m with steps := m.steps + 1, stack := some v :: m.stack }.goto p (pc + 1) := by
  have hexec : (Instruction.push v).exec m.memory m.stack =
      ⟨some v :: m.stack, .ok .proceed⟩ := by
    cases v <;> rfl
  rw [step_granted hdue hexec]
  rfl

/-- A store, as a step. -/
theorem step_storeMemory {a : Int64} {slot : Slot} {rest : Stack} {pc : Nat}
    (hdue : p[pc]? = some (.storeMemory a)) (hstack : m.stack = slot :: rest) :
    (m.goto p pc).step p =
      ({ m with steps := m.steps + 1, stack := rest }.write a slot).goto p (pc + 1) := by
  have hexec : (Instruction.storeMemory a).exec m.memory m.stack =
      ⟨rest, .ok (.store a slot)⟩ := by
    rw [hstack]
    rfl
  rw [step_granted hdue hexec]
  rfl

/-- A program in the middle of which stores stand: the machine that has come to the first one goes
on behind the last one, with the values in memory and the stack as it was. After the two
instructions of a store it has come to the rest of the stores. -/
theorem resume_storing {cells : List (Int64 × Value)} {rest : List Instruction} {base : Nat}
    (hcode : p.toList.drop base = (Program.storing cells).toList ++ rest) (m : Machine) :
    (m.goto p base).resume p (2 * cells.length) =
      { m with
        steps := m.steps + 2 * cells.length
        memory := m.memory.storeAll (slots cells)
        stores := m.stores ++ (slots cells).toArray }.goto p (base + 2 * cells.length) := by
  induction cells generalizing base m with
  | nil => simp [resume, slots, Memory.storeAll]
  | cons c cells ih =>
    obtain ⟨address, value⟩ := c
    have hpair : p.toList.drop base =
        .push value :: .storeMemory address :: ((Program.storing cells).toList ++ rest) := by
      rw [hcode]
      rfl
    obtain ⟨hpush, hbehind⟩ := Program.due_of_drop hpair
    obtain ⟨hstore, hcells⟩ := Program.due_of_drop hbehind
    have hlength : 2 * (cells.length + 1) = 2 * cells.length + 1 + 1 := by omega
    rw [List.length_cons, hlength, resume_succ, resume_succ, step_push hpush,
      step_storeMemory hstore rfl]
    have hnext := ih hcells
      { m with
        steps := m.steps + 2
        memory := m.memory.store address (some value)
        stores := m.stores.push (address, some value) }
    refine Eq.trans hnext ?_
    have hsteps : m.steps + 2 + 2 * cells.length = m.steps + (2 * cells.length + 1 + 1) := by omega
    have hpc : base + 2 + 2 * cells.length = base + (2 * cells.length + 1 + 1) := by omega
    have hstores : m.stores.push (address, some value) ++ (slots cells).toArray =
        m.stores ++ (slots ((address, value) :: cells)).toArray := by
      simp [slots]
    rw [hsteps, hpc, hstores]
    rfl

/-- Behind the stores the machine is where the program by itself starts on the memory they leave. -/
theorem later_storing (cells : List (Int64 × Value)) (p : Program) {m m₁ : Machine}
    (hmemory : m₁.memory = m.memory.storeAll (slots cells)) (houtput : m₁.output = m.output) :
    Later (Program.storing cells).size (m₁.start p)
      ((m.start (p.withPrelude (.storing cells))).resume (p.withPrelude (.storing cells))
        (Program.storing cells).size) := by
  have hcode : (p.withPrelude (.storing cells)).toList.drop 0 =
      (Program.storing cells).toList ++ p.toList := Array.toList_append
  have hrun := resume_storing hcode { m with steps := 0, stack := [] }
  have hbefore : Later (Program.storing cells).size
      { m₁ with phase := .ready, result? := none, pc := 0, steps := 0, stack := [] }
      { m with
        phase := .ready
        result? := none
        pc := 0 + (Program.storing cells).size
        steps := 0 + (Program.storing cells).size
        stack := []
        memory := m.memory.storeAll (slots cells)
        stores := m.stores ++ (slots cells).toArray } :=
    ⟨rfl, rfl, rfl, rfl, rfl, hmemory.symm, houtput.symm⟩
  rw [← Program.size_storing] at hrun
  rw [start, start, hrun]
  exact hbefore.goto 0

/-- A run behind stores is the run on the memory they leave, later by the instructions they take. -/
theorem runsLater_storing (cells : List (Int64 × Value)) (p : Program) (limit : Option Nat)
    {m m₁ : Machine} (hmemory : m₁.memory = m.memory.storeAll (slots cells))
    (houtput : m₁.output = m.output) :
    RunsLater (2 * cells.length) p (p.withPrelude (.storing cells)) limit
      (limit.map (· + 2 * cells.length)) m₁ m := by
  rw [← Program.size_storing]
  refine RunsLater.of_slices fun n => ?_
  rw [runSlice_resume]
  · exact (Later.lockstep (Program.labelFree_storing cells)).runSlice
      (later_storing cells p hmemory houtput) limit n
  · intro l hl
    obtain ⟨l, -, rfl⟩ := Option.map_eq_some_iff.mp hl
    show 0 + (Program.storing cells).size ≤ l + (Program.storing cells).size
    omega

/-- A limit that ends a run among the stores: nothing is written. Without the limit the same run
would get behind the stores, so it is still running where the limit is reached. -/
theorem run_storing_of_lt {cells : List (Int64 × Value)} {l : Nat} (hl : l < 2 * cells.length)
    (p : Program) (m : Machine) :
    let final := m.run (p.withPrelude (.storing cells)) l
    final.FailedFor (.stepLimitExceeded l) ∧ final.steps = l ∧ final.output = m.output := by
  rw [← Program.size_storing] at hl
  generalize hfull : p.withPrelude (.storing cells) = full
  intro final
  have hbehind : Later (Program.storing cells).size
      (({ m with memory := m.memory.storeAll (slots cells) } : Machine).start p)
      ((m.start full).resume full (Program.storing cells).size) :=
    hfull ▸ later_storing cells p rfl rfl
  rw [← Nat.add_sub_cancel' (Nat.le_of_lt hl), resume_add] at hbehind
  have hrunning : ((m.start full).resume full l).phase = .running := by
    refine Decidable.byContradiction fun hended => ?_
    rw [resume_of_ne_running hended] at hbehind
    have hsteps : ((m.start full).resume full l).steps = 0 + _ := hbehind.steps
    have hle : ((m.start full).resume full l).steps ≤ 0 + l := steps_resume_le full l _
    omega
  have hsteps : ((m.start full).resume full l).steps = 0 + l := steps_resume_of_running hrunning
  have hfinal : final = ((m.start full).resume full l).fail (.stepLimitExceeded l) := by
    show (m.start full).runSlice full (some l) l = _
    have hall : min l (l - (m.start full).steps) = l := Nat.min_self l
    rw [runSlice, hall]
    exact if_pos ⟨hrunning, by omega⟩
  refine ⟨hfinal ▸ failedFor_fail _ _, ?_, ?_⟩
  · rw [hfinal]
    show ((m.start full).resume full l).steps = l
    omega
  · have hstart := output_resume_grows full l (m.start full)
    have hend := output_resume_grows full ((Program.storing cells).size - l)
      ((m.start full).resume full l)
    rw [hbehind.output] at hend
    rw [hfinal]
    exact Array.toList_inj.mp (hend.eq_of_length_le hstart.length_le)

end Machine

/-! ## Parameters and presets -/

namespace Header

/-- The cells that the parameters fill. -/
def bindings (h : Header) : List (Int64 × Value) := h.map fun p => (p.address, p.value)

/-- The prelude of a header stores its bindings. -/
theorem prelude_eq_storing (h : Header) : h.prelude = .storing h.bindings := by
  rw [prelude, Program.storing, bindings, List.flatMap_map]
  rfl

/-- The cells of a header are its bindings. -/
theorem cells_eq_slots (h : Header) : h.cells = slots h.bindings := by
  rw [cells, slots, bindings, List.map_map]
  rfl

/-- Setting a parameter keeps the number of parameters. -/
theorem length_set (name raw : String) (h : Header) :
    (Header.set name raw h).2.length = h.length := by
  induction h with
  | nil => rfl
  | cons p ps ih =>
    rw [Header.set]
    split
    · rfl
    · exact congrArg (· + 1) ih

/-- Overrides keep the number of parameters. -/
theorem length_overrideAll {overrides : List (String × String)} {h h' : Header}
    (hok : h.overrideAll overrides = .ok h') : h'.length = h.length := by
  induction overrides generalizing h with
  | nil =>
    cases hok
    rfl
  | cons first rest ih =>
    obtain ⟨name, raw⟩ := first
    have hlength := length_set name raw h
    rw [overrideAll] at hok
    split at hok
    · cases hok
    · rename_i h₁ hset
      rw [hset] at hlength
      rw [ih hok, hlength]

end Header

namespace Command

namespace Preset

/-- The cells that presets fill. -/
def bindings (presets : List Preset) : List (Int64 × Value) :=
  presets.map fun q => (q.address, .int q.value)

/-- The prelude of presets stores their bindings. -/
theorem prelude_eq_storing (presets : List Preset) :
    Preset.prelude presets = .storing (bindings presets) := by
  rw [Preset.prelude, Program.storing, bindings, List.flatMap_map]
  rfl

/-- Presets are read from the first one on. -/
theorem readAll_cons (raw : String) (raws : List String) :
    readAll (raw :: raws) =
      (read raw).bind fun q => (readAll raws).bind fun qs => .ok (q :: qs) := by
  rw [readAll, List.mapM_cons]
  rfl

/-- Texts are read as presets exactly if each one is. -/
theorem readAll_eq_ok_iff {raws : List String} {presets : List Preset} :
    readAll raws = .ok presets ↔ List.Forall₂ (fun raw q => read raw = .ok q) raws presets := by
  induction raws generalizing presets with
  | nil =>
    rw [List.forall₂_nil_left_iff]
    exact ⟨fun h => (Except.ok.inj h).symm, fun h => congrArg Except.ok h.symm⟩
  | cons raw raws ih =>
    rw [readAll_cons, List.forall₂_cons_left_iff]
    constructor
    · intro h
      cases hread : read raw with
      | error fault =>
        rw [hread] at h
        cases h
      | ok q =>
        cases hreads : readAll raws with
        | error fault =>
          rw [hread, hreads] at h
          cases h
        | ok qs =>
          rw [hread, hreads] at h
          cases h
          exact ⟨q, qs, rfl, ih.mp hreads, rfl⟩
    · rintro ⟨q, qs, hread, hreads, rfl⟩
      rw [hread, ih.mpr hreads]
      rfl

end Preset

/-- The prelude of an accepted invocation stores the parameters and then the presets. -/
theorem boot_eq_storing {h header : Header} {opts : RunOptions} {presets : List Preset}
    (hheader : h.overrideAll opts.overrides = .ok header)
    (hpresets : Preset.readAll opts.presets = .ok presets) :
    boot h opts = .ok (.storing (header.bindings ++ Preset.bindings presets)) := by
  rw [boot, hheader, hpresets, Program.storing_append, ← Header.prelude_eq_storing,
    ← Preset.prelude_eq_storing]

/-- Presets count before parameters, and later ones before earlier ones. -/
theorem load_bindings (header : Header) (presets : List Preset) (a : Int64) :
    (Memory.empty.storeAll (slots (header.bindings ++ Preset.bindings presets))).load a =
      ((presets.reverse.find? (·.address == a)).map fun q => .int q.value).or
        ((header.reverse.find? (·.address == a)).map (·.value)) := by
  rw [Memory.load_storeAll, Memory.load_empty]
  simp only [slots, Header.bindings, Preset.bindings, List.map_append, List.map_map,
    List.reverse_append, ← List.map_reverse, List.find?_append, List.find?_map]
  have hpreset : ((fun s : Int64 × Slot => s.1 == a) ∘ (fun c : Int64 × Value => (c.1, some c.2)) ∘
      fun q : Preset => (q.address, Value.int q.value)) = fun q => q.address == a := rfl
  have hparameter :
      ((fun s : Int64 × Slot => s.1 == a) ∘ (fun c : Int64 × Value => (c.1, some c.2)) ∘
      fun p : Parameter => (p.address, p.value)) = fun p => p.address == a := rfl
  rw [hpreset, hparameter]
  cases presets.reverse.find? (·.address == a) with
  | some q => rfl
  | none =>
    cases header.reverse.find? (·.address == a) with
    | some p => rfl
    | none => rfl

/-- What is run behind the prelude is the assembled program on a memory that holds, at each address,
the last preset for it or else the value of the last parameter there: `k` instructions later if the
limit leaves room for the prelude, and without a line of output if it does not. The same holds of
the parameters alone on any machine. -/
theorem bootProgram_runsLater (a : Assembly.Assembled) (opts : RunOptions) {header : Header}
    {presets : List Preset} (hheader : a.header.overrideAll opts.overrides = .ok header)
    (hpresets : Preset.readAll opts.presets = .ok presets) :
    let k := 2 * (a.header.length + opts.presets.length)
    (∃ (program : Program) (memory : Memory),
      planRun a opts = .run program opts.maxSteps ∧
      (∀ address, memory.load address =
        ((presets.reverse.find? (·.address == address)).map fun q => .int q.value).or
          ((header.reverse.find? (·.address == address)).map (·.value))) ∧
      (∀ limit : Option Nat, (∀ l ∈ limit, k ≤ l) →
        Machine.RunsLater k a.program program (limit.map (· - k)) limit { memory } {}) ∧
      ∀ l < k, ∃ final, Machine.Ends program (some l) {} final ∧
        final.FailedFor (.stepLimitExceeded l) ∧ final.steps = l ∧ final.output = #[]) ∧
    ∀ (m : Machine) (limit : Option Nat),
      Machine.RunsLater (2 * a.header.length) a.program (a.program.withPrelude a.header.prelude)
        limit (limit.map (· + 2 * a.header.length)) (m.writeAll a.header.cells) m := by
  intro k
  have hlength : 2 * (header.bindings ++ Preset.bindings presets).length = k := by
    rw [List.length_append, Header.bindings, Preset.bindings, List.length_map, List.length_map,
      Header.length_overrideAll hheader, ← (Preset.readAll_eq_ok_iff.mp hpresets).length_eq]
  refine ⟨⟨a.program.withPrelude (.storing (header.bindings ++ Preset.bindings presets)), _,
    ?planned, load_bindings header presets, ?enough, ?short⟩, ?parameters⟩
  case planned => rw [planRun, bootProgram, boot_eq_storing hheader hpresets, Except.map]
  case enough =>
    intro limit hlimit
    have hback : (limit.map (· - k)).map (· + k) = limit := by
      cases limit with
      | none => rfl
      | some l =>
        have hl : k ≤ l := hlimit l rfl
        rw [Option.map_some, Option.map_some, Nat.sub_add_cancel hl]
    have hruns : Machine.RunsLater _ a.program _ (limit.map (· - k)) _
        { memory := Memory.empty.storeAll _ } {} :=
      Machine.runsLater_storing (header.bindings ++ Preset.bindings presets) a.program _ rfl rfl
    rwa [hlength, hback] at hruns
  case short =>
    intro l hl
    rw [← hlength] at hl
    exact ⟨_, Machine.ends_run _ l {}, Machine.run_storing_of_lt hl a.program {}⟩
  case parameters =>
    intro m limit
    have hmemory :
        (m.writeAll a.header.cells).memory = m.memory.storeAll (slots a.header.bindings) := by
      rw [Machine.writeAll_eq, Header.cells_eq_slots]
    have houtput : (m.writeAll a.header.cells).output = m.output := by rw [Machine.writeAll_eq]
    have hruns := Machine.runsLater_storing a.header.bindings a.program limit hmemory houtput
    rwa [Header.bindings, List.length_map, ← Header.bindings, ← Header.prelude_eq_storing] at hruns

/-- Two parameters and two presets for one address, one of the parameters overridden: the last
preset counts, and a limit of nine does not get past the prelude. -/
theorem bootProgram_runsLater_overridden :
    ∃ (program : Program) (memory : Memory),
      planRun
        { program := #[.output 1, .output 2]
          header := [⟨"n", 1, .int 3⟩, ⟨"s", 1, .str "x"⟩, ⟨"t", 2, .str "y"⟩] }
        { overrides := [("t", "z")], presets := [" 1 : 5", "1:-7"], maxSteps := some 20 } =
        .run program (some 20) ∧
      memory.load 1 = some (.int (-7)) ∧ memory.load 2 = some (.str "z") ∧ memory.load 3 = none ∧
      Machine.RunsLater 10 #[.output 1, .output 2] program (some 10) (some 20) { memory } {} ∧
      ∃ final, Machine.Ends program (some 9) {} final ∧
        final.FailedFor (.stepLimitExceeded 9) ∧ final.steps = 9 ∧ final.output = #[] := by
  have hheader : Header.overrideAll [⟨"n", 1, .int 3⟩, ⟨"s", 1, .str "x"⟩, ⟨"t", 2, .str "y"⟩]
      [("t", "z")] = .ok [⟨"n", 1, .int 3⟩, ⟨"s", 1, .str "x"⟩, ⟨"t", 2, .str "z"⟩] := rfl
  have hpresets : Preset.readAll [" 1 : 5", "1:-7"] = .ok [⟨1, 5⟩, ⟨1, -7⟩] := rfl
  obtain ⟨⟨program, memory, hplan, hload, henough, hshort⟩, -⟩ := bootProgram_runsLater
    { program := #[.output 1, .output 2]
      header := [⟨"n", 1, .int 3⟩, ⟨"s", 1, .str "x"⟩, ⟨"t", 2, .str "y"⟩] }
    { overrides := [("t", "z")], presets := [" 1 : 5", "1:-7"], maxSteps := some 20 }
    hheader hpresets
  refine ⟨program, memory, hplan, (hload 1).trans rfl, (hload 2).trans rfl, (hload 3).trans rfl,
    ?_, ?_⟩
  · refine henough (some 20) fun l hl => ?_
    obtain rfl : 20 = l := Option.some.inj hl
    decide
  · exact hshort 9 (by decide)

end Command

end StackMachine
