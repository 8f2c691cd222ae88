import StackMachine.Proofs.Relocation

/-!
# Labels that no jump goes to

A label does nothing when it is dispatched, so a further one in the middle of a program changes
nothing but the count, unless some jump goes there instead of where it went. It does not if no jump
of the program has its id, or if a label with this id stands before it, because a jump goes to the
first one.

`Inserted` says what is needed of the longer program: instructions behind the new label have moved
by one (`place`), and labels are found where they have moved to. Then a machine that has the new
label neither due nor ahead of a jump is `Beside` the one that runs the shorter program; after a
step of the latter, the former takes the same step, and one more where it has come upon the new
label (`Beside.step`). So the two runs end alike (`insert_label_ends`).
-/

namespace StackMachine

/-! ## Places -/

/-- Where the instruction at `j` stands after an insertion at `i`. -/
def place (i j : Nat) : Nat := if j < i then j else j + 1

/-- What stands before the insertion stays where it is. -/
theorem place_of_lt {i j : Nat} (h : j < i) : place i j = j := if_pos h

/-- What stands behind the insertion moves up by one. -/
theorem place_of_le {i j : Nat} (h : i ≤ j) : place i j = j + 1 := if_neg (Nat.not_lt.mpr h)

/-- Behind an instruction stands the one that stood behind it, or the new one. -/
theorem place_succ (i j : Nat) :
    place i j + 1 = place i (j + 1) ∨ j + 1 = i ∧ place i j + 1 = i := by
  unfold place
  split <;> split <;> omega

/-- A place is in the longer program exactly if the index is in the shorter one. -/
theorem place_lt_succ_iff {i j n : Nat} (h : i ≤ n) : place i j < n + 1 ↔ j < n := by
  unfold place
  split <;> omega

/-- Every place is the new one, or one that was there before. -/
theorem eq_or_eq_place (i k : Nat) : k = i ∨ ∃ j, k = place i j := by
  rcases Nat.lt_trichotomy k i with hlt | heq | hgt
  · exact .inr ⟨k, (place_of_lt hlt).symm⟩
  · exact .inl heq
  · refine .inr ⟨k - 1, ?_⟩
    rw [place_of_le (by omega)]
    omega

/-- An insertion keeps the order. -/
theorem lt_of_place_lt {i j k : Nat} (h : place i k < place i j) : k < j := by
  unfold place at h
  split at h <;> split at h <;> omega

/-! ## The longer program -/

namespace Program

/-- The program with a label before the instruction at `i`, or at the end. -/
def insertLabel (p : Program) (i : Nat) (x : Int64) (hi : i ≤ p.size) : Program :=
  p.insertIdx i (.label x) hi

variable {p : Program} {i : Nat} {x : Int64}

/-- The label stands where it was inserted. -/
theorem getElem?_insertLabel_self (hi : i ≤ p.size) :
    (p.insertLabel i x hi)[i]? = some (.label x) := by
  rw [insertLabel, Array.getElem?_insertIdx, if_neg (Nat.lt_irrefl i), if_pos rfl, if_pos hi]

/-- Every other instruction stands at its place. -/
theorem getElem?_insertLabel_place (hi : i ≤ p.size) (j : Nat) :
    (p.insertLabel i x hi)[place i j]? = p[j]? := by
  rw [insertLabel, Array.getElem?_insertIdx]
  rcases Nat.lt_or_ge j i with hlt | hge
  · rw [place_of_lt hlt, if_pos hlt]
  · rw [place_of_le hge, if_neg (by omega), if_neg (by omega), Nat.add_sub_cancel]

/-- A label is found where it has moved to, if it is not the new one or if it stands before that;
one that stands before the new one is not before the one that is found. -/
theorem findLabel_insertLabel (hi : i ≤ p.size) {l : Int64}
    (hl : l ≠ x ∨ ∃ j < i, p[j]? = some (.label l)) :
    (p.insertLabel i x hi).findLabel l = (p.findLabel l).map (place i) := by
  cases hfound : p.findLabel l with
  | none =>
    have habsent := findLabel_eq_none_iff.mp hfound
    rw [Option.map_none, findLabel_eq_none_iff, insertLabel, Array.mem_insertIdx]
    rintro (hnew | hold)
    · rcases hl with hne | ⟨j, -, hj⟩
      · exact hne (Instruction.label.inj hnew)
      · exact habsent (Array.mem_of_getElem? hj)
    · exact habsent hold
  | some j =>
    obtain ⟨hj, hfirst⟩ := findLabel_eq_some_iff.mp hfound
    rw [Option.map_some, findLabel_eq_some_iff]
    refine ⟨(getElem?_insertLabel_place hi j).trans hj, fun k hk hkl => ?_⟩
    rcases eq_or_eq_place i k with rfl | ⟨k, rfl⟩
    · rw [getElem?_insertLabel_self hi] at hkl
      rcases hl with hne | ⟨j', hj', hlabel⟩
      · exact hne (Instruction.label.inj (Option.some.inj hkl)).symm
      · have hle : j ≤ j' := Nat.le_of_not_lt fun hlt => hfirst j' hlt hlabel
        rw [place_of_lt (Nat.lt_of_le_of_lt hle hj')] at hk
        omega
    · rw [getElem?_insertLabel_place hi] at hkl
      exact hfirst k (lt_of_place_lt hk) hkl

end Program

/-- The program `p'` is `p` with a label at `i` that no jump goes to. -/
structure Inserted (i : Nat) (x : Int64) (p p' : Program) : Prop where
  inside : i ≤ p.size
  size : p'.size = p.size + 1
  label : p'[i]? = some (.label x)
  due : ∀ j : Nat, p'[place i j]? = p[j]?
  target : ∀ l, p.JumpsTo l → p'.findLabel l = (p.findLabel l).map (place i)

/-- No jump goes to a label whose id no jump has, or which stands behind another one with its id. -/
theorem inserted_insertLabel {p : Program} {i : Nat} {x : Int64} (hi : i ≤ p.size)
    (hx : ¬p.JumpsTo x ∨ ∃ j < i, p[j]? = some (.label x)) :
    Inserted i x p (p.insertLabel i x hi) where
  inside := hi
  size := Array.size_insertIdx hi
  label := Program.getElem?_insertLabel_self hi
  due := Program.getElem?_insertLabel_place hi
  target := by
    intro l hl
    refine Program.findLabel_insertLabel hi ?_
    rcases Decidable.em (l = x) with rfl | hne
    · exact .inr (hx.resolve_left fun hno => hno hl)
    · exact .inl hne

/-! ## The machine beside -/

namespace Machine

/-- The machines hold the same and have written and stored the same. -/
structure Alike (m m' : Machine) : Prop where
  stack : m'.stack = m.stack
  memory : m'.memory = m.memory
  output : m'.output = m.output
  stores : m'.stores = m.stores

/-- The machine `m'` runs the program with the label inserted at `i` and is where `m` is. -/
structure Beside (i : Nat) (m m' : Machine) : Prop extends Alike m m' where
  phase : m'.phase = m.phase
  result : m'.result? = m.result?
  pc : m'.pc = place i m.pc

variable {i : Nat} {x : Int64} {p p' : Program} {m m' : Machine}

/-- A machine that goes to the place of an instruction, or to the label before it, gets beside the
one that goes to the instruction: the label is dispatched, and behind it stands the instruction. -/
theorem Alike.goto (h : Alike m m') (hp : Inserted i x p p') {t t' : Nat}
    (ht : t' = place i t ∨ t = i ∧ t' = i) :
    ∃ k, Beside i (m.goto p t) ((m'.goto p' t').resume p' k) := by
  have hinside : place i t < p'.size ↔ t < p.size := by
    rw [hp.size, place_lt_succ_iff hp.inside]
  have hbeside : ∀ m'', Alike m m'' → Beside i (m.goto p t) (m''.goto p' (place i t)) := by
    intro m'' h
    refine ⟨⟨h.stack, h.memory, h.output, h.stores⟩, ?_, ?_, rfl⟩ <;>
      simp only [Machine.goto, hinside]
  rcases ht with rfl | ⟨hlabel, hlabel'⟩
  · exact ⟨0, hbeside m' h⟩
  · rw [hlabel] at hbeside
    rw [hlabel, hlabel']
    have hrunning : (m'.goto p' i).phase = .running :=
      if_pos (by rw [hp.size]; exact Nat.lt_succ_of_le hp.inside)
    have hdispatch : (m'.goto p' i).step p' = { m' with steps := m'.steps + 1 }.goto p' (i + 1) :=
      step_of_due hrunning hp.label
    refine ⟨1, ?_⟩
    rw [resume_succ, hdispatch, resume, ← place_of_le (Nat.le_refl i)]
    exact hbeside _ ⟨h.stack, h.memory, h.output, h.stores⟩

namespace Beside

/-- Machines that have halted. -/
theorem halt (h : Beside i m m') : Beside i m.halt m'.halt :=
  { h with phase := rfl, result := rfl }

/-- Both machines grant the request, and the one beside may come upon the label then. -/
theorem grant (h : Beside i m m') (hp : Inserted i x p p') {request : Request}
    (hjump : ∀ l, request = .jump l → p.JumpsTo l) :
    ∃ k, Beside i (m.grant p request) ((m'.grant p' request).resume p' k) := by
  have hnext : m'.pc + 1 = place i (m.pc + 1) ∨ m.pc + 1 = i ∧ m'.pc + 1 = i := by
    rw [h.pc]
    exact place_succ i m.pc
  cases request with
  | proceed => exact h.toAlike.goto hp hnext
  | jump l =>
    rw [Machine.grant, Machine.grant, hp.target l (hjump l rfl)]
    cases p.findLabel l with
    | none => exact ⟨0, { h with phase := rfl, result := rfl }⟩
    | some j => exact h.toAlike.goto hp (place_succ i j)
  | stop => exact ⟨0, h.halt⟩
  | store a slot =>
    have hwrite : Alike (m.write a slot) (m'.write a slot) :=
      { h with
        memory := congrArg (·.store a slot) h.memory
        stores := congrArg (·.push (a, slot)) h.stores }
    exact hwrite.goto hp hnext
  | emit line =>
    have hemit : Alike (m.emit line) (m'.emit line) :=
      { h with output := congrArg (·.push line) h.output }
    exact hemit.goto hp hnext

/-- Both machines dispatch the instruction. -/
theorem dispatch (h : Beside i m m') (hp : Inserted i x p p') {instr : Instruction}
    (hi : instr ∈ p) : ∃ k, Beside i (m.dispatch p instr) ((m'.dispatch p' instr).resume p' k) := by
  have hexec : instr.exec m'.memory m'.stack = instr.exec m.memory m.stack := by
    rw [h.memory, h.stack]
  unfold Machine.dispatch
  dsimp only
  rw [hexec]
  have hafter : Beside i
      { m with steps := m.steps + 1, stack := (instr.exec m.memory m.stack).stack }
      { m' with steps := m'.steps + 1, stack := (instr.exec m.memory m.stack).stack } :=
    { h with stack := rfl }
  cases houtcome : (instr.exec m.memory m.stack).outcome with
  | error fault => exact ⟨0, { hafter with phase := rfl, result := rfl }⟩
  | ok request =>
    refine hafter.grant hp ?_
    rintro l rfl
    exact Program.jumpsTo_of_mem hi (Instruction.exec_ok_jump houtcome)

/-- Both machines are running or none is. -/
theorem phase_eq_running (h : Beside i m m') : m'.phase = .running ↔ m.phase = .running := by
  rw [h.phase]

/-- The machine beside takes the same step, and then one more if it has come upon the label. -/
theorem step (h : Beside i m m') (hp : Inserted i x p p') :
    ∃ k, Beside i (m.step p) ((m'.step p').resume p' k) := by
  have hdue : p'[m'.pc]? = p[m.pc]?.map id := by rw [h.pc, hp.due, Option.map_id_apply]
  exact step_related (R := fun m m' => ∃ k, Beside i m (m'.resume p' k))
    id ⟨0, h⟩ h.phase_eq_running hdue
    ⟨0, h.halt⟩ fun _ hi => h.dispatch hp (Array.mem_of_getElem? hi)

/-- The run beside takes the same steps, and some more. -/
theorem stutter (hp : Inserted i x p p') : Stutter (Beside i) p p' where
  running := phase_eq_running
  step := fun h => h.step hp

end Beside

/-- A label that cannot become the target of a jump does not change what a program means. If no jump
of the program has its id, or a label with this id stands before the place where it is inserted,
then without a limit both programs end or none does, and they end with the same result, in the same
phase, with the same stack, memory, output and stores. -/
theorem insert_label_ends {p : Program} {i : Nat} {x : Int64} (hi : i ≤ p.size)
    (hx : ¬p.JumpsTo x ∨ ∃ j < i, p[j]? = some (.label x)) (m : Machine) :
    let p' := p.insertLabel i x hi
    ((∃ final, Ends p none m final) ↔ ∃ final', Ends p' none m final') ∧
    ∀ final final', Ends p none m final → Ends p' none m final' →
      final'.result? = final.result? ∧ final'.phase = final.phase ∧ final'.stack = final.stack ∧
      final'.memory = final.memory ∧ final'.output = final.output ∧
        final'.stores = final.stores := by
  intro p'
  have hp : Inserted i x p p' := inserted_insertLabel hi hx
  have hzero : 0 = place i 0 ∨ 0 = i ∧ 0 = i := by
    unfold place
    split <;> omega
  have halike : Alike { m with steps := 0, stack := [] } { m with steps := 0, stack := [] } :=
    ⟨rfl, rfl, rfl, rfl⟩
  obtain ⟨k, hstart⟩ := halike.goto hp hzero
  obtain ⟨hends, hfinals⟩ := (Beside.stutter hp).runs hstart
  refine ⟨hends, fun final final' hend hend' => ?_⟩
  have hbeside := hfinals final final' hend hend'
  exact ⟨hbeside.result, hbeside.phase, hbeside.stack, hbeside.memory, hbeside.output,
    hbeside.stores⟩

/-- A second label of a jump, right behind the first one, where the jump comes upon it; and a label
at the end of the program that no jump has the id of. -/
theorem insert_label_ends_landing :
    let p : Program := #[.jump 1, .output 7, .label 1, .pushInt 5]
    ∃ final final₁ final₂, Ends p none {} final ∧
      Ends (p.insertLabel 3 1 (by decide)) none {} final₁ ∧
      Ends (p.insertLabel 4 9 (by decide)) none {} final₂ ∧ final.phase = .halted ∧
      final₁.phase = .halted ∧ final₂.phase = .halted ∧ final.stack = [some (.int 5)] ∧
      final₁.stack = [some (.int 5)] ∧ final₂.stack = [some (.int 5)] := by
  intro p
  have hend : Ends p none {} (resume p 2 (start {} p)) := ⟨2, rfl, by decide +kernel⟩
  have hphase : (resume p 2 (start {} p)).phase = .halted := by decide +kernel
  have hstack : (resume p 2 (start {} p)).stack = [some (.int 5)] := by decide +kernel
  have hunused : ¬p.JumpsTo 9 := by simp [Program.JumpsTo, p]
  obtain ⟨hends₁, hfinals₁⟩ :=
    insert_label_ends (p := p) (i := 3) (by decide) (.inr ⟨2, by decide, rfl⟩) {}
  obtain ⟨hends₂, hfinals₂⟩ := insert_label_ends (p := p) (i := 4) (by decide) (.inl hunused) {}
  obtain ⟨final₁, hend₁⟩ := hends₁.mp ⟨_, hend⟩
  obtain ⟨final₂, hend₂⟩ := hends₂.mp ⟨_, hend⟩
  obtain ⟨-, hphase₁, hstack₁, -⟩ := hfinals₁ _ _ hend hend₁
  obtain ⟨-, hphase₂, hstack₂, -⟩ := hfinals₂ _ _ hend hend₂
  exact ⟨_, final₁, final₂, hend, hend₁, hend₂, hphase, hphase₁.trans hphase, hphase₂.trans hphase,
    hstack, hstack₁.trans hstack, hstack₂.trans hstack⟩

end Machine

end StackMachine
