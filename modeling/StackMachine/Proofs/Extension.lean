import StackMachine.Proofs.Limit
import StackMachine.Proofs.Relocation

/-!
# Code behind a program

Code that stands behind a program is not seen by a run that does not come to it. A jump goes to the
first label with its id, so a label that the program has is found at the same place in the longer
program (`findLabel_append`), whatever labels follow. As long as a run of the shorter program is due
an instruction, the run of the longer one is in the same state; and where the shorter one ends, the
longer one ends with it, unless the end was that of the program (`onward`), or a label was missing,
which may stand in the code behind.

The step lemma is `step_append`, the run lemma `resume_append`. A limit is the same for both
programs, so it cuts both runs off at the same moment (`append_ends`).
-/

namespace StackMachine

/-- A label is found inside the program. -/
theorem Program.lt_size_of_findLabel {p : Program} {l : Int64} {i : Nat}
    (h : p.findLabel l = some i) : i < p.size :=
  (Array.getElem?_eq_some_iff.mp (findLabel_eq_some_iff.mp h).1).1

/-- A label that a program has is found there, whatever stands behind. -/
theorem Program.findLabel_append {p : Program} {l : Int64} {i : Nat} (h : p.findLabel l = some i)
    (q : Program) : (p ++ q).findLabel l = some i := by
  rw [findLabel] at h ⊢
  rw [Array.findIdx?_append, h, Option.some_or]

namespace Machine

variable {p : Program} {m : Machine}

/-! ## The end of a program -/

/-- The run has come to the end of the program. -/
def AtEnd (m : Machine) (p : Program) : Prop := m.phase = .halted ∧ m.pc = p.size

instance (m : Machine) (p : Program) : Decidable (m.AtEnd p) := inferInstanceAs (Decidable (_ ∧ _))

/-- The run has failed for a label that the program does not have. -/
def MissesLabel (m : Machine) : Prop := ∃ l, m.FailedFor (.unresolvedLabel l)

/-- A machine that is running misses no label. -/
theorem not_missesLabel_of_running (h : m.phase = .running) : ¬m.MissesLabel := by
  rintro ⟨l, hl⟩
  cases h.symm.trans hl.1

/-- A machine that has halted misses no label. -/
theorem not_missesLabel_of_halted (h : m.phase = .halted) : ¬m.MissesLabel := by
  rintro ⟨l, hl⟩
  cases h.symm.trans hl.1

/-- The machine goes on with the code behind the program if it has come to the end of the
program. -/
def onward (m : Machine) (p q : Program) : Machine :=
  if m.AtEnd p then m.goto (p ++ q) p.size else m

/-- At the end of the program the machine goes on. -/
theorem onward_of_atEnd (h : m.AtEnd p) (q : Program) : m.onward p q = m.goto (p ++ q) p.size :=
  if_pos h

/-- Anywhere else it stays as it is. -/
theorem onward_of_not_atEnd (h : ¬m.AtEnd p) (q : Program) : m.onward p q = m := if_neg h

/-- A machine that is running is not at the end of the program. -/
theorem onward_of_running (h : m.phase = .running) (q : Program) : m.onward p q = m := by
  refine onward_of_not_atEnd (fun hend => ?_) q
  cases h.symm.trans hend.1

/-! ## One step -/

/-- The longer program goes on where the program ends. -/
theorem goto_append {pc : Nat} (hpc : pc ≤ p.size) (m : Machine) (q : Program) :
    m.goto (p ++ q) pc = (m.goto p pc).onward p q := by
  rcases Nat.lt_or_eq_of_le hpc with hlt | rfl
  · have hlonger : pc < (p ++ q).size := by
      rw [Array.size_append]
      omega
    have hrunning : (m.goto p pc).phase = .running := if_pos hlt
    rw [onward_of_running hrunning]
    simp only [goto, if_pos hlt, if_pos hlonger]
  · have hend : (m.goto p p.size).AtEnd p := ⟨if_neg (Nat.lt_irrefl _), rfl⟩
    rw [onward_of_atEnd hend]
    rfl

/-- In the longer program the request is granted alike, unless a label is missing. -/
theorem grant_append (hpc : m.pc < p.size) {request : Request}
    (h : ¬(m.grant p request).MissesLabel)
    (q : Program) : m.grant (p ++ q) request = (m.grant p request).onward p q := by
  cases request with
  | proceed => exact goto_append hpc m q
  | jump l =>
    cases hl : p.findLabel l with
    | none =>
      refine absurd ⟨l, ?_⟩ h
      rw [grant, hl]
      exact failedFor_fail m _
    | some i =>
      rw [grant, grant, hl, Program.findLabel_append hl]
      exact goto_append (Program.lt_size_of_findLabel hl) m q
  | stop =>
    have hinside : ¬(m.grant p .stop).AtEnd p := fun hend => Nat.ne_of_lt hpc hend.2
    rw [onward_of_not_atEnd hinside]
    rfl
  | store a slot => exact goto_append hpc (m.write a slot) q
  | emit line => exact goto_append hpc (m.emit line) q

/-- In the longer program the instruction does the same, unless a label is missing. -/
theorem dispatch_append (hpc : m.pc < p.size) {i : Instruction} (h : ¬(m.dispatch p i).MissesLabel)
    (q : Program) : m.dispatch (p ++ q) i = (m.dispatch p i).onward p q := by
  unfold dispatch at h ⊢
  dsimp only at h ⊢
  cases houtcome : (i.exec m.memory m.stack).outcome with
  | error fault => exact (onward_of_not_atEnd (fun hend => by cases hend.1) q).symm
  | ok request =>
    rw [houtcome] at h
    exact grant_append (m := { m with steps := m.steps + 1, stack := _ }) hpc h q

/-- In the longer program the step is the same, and goes on where the program ends. -/
theorem step_append (hrunning : m.phase = .running) (hpc : m.pc < p.size)
    (h : ¬(m.step p).MissesLabel) (q : Program) : m.step (p ++ q) = (m.step p).onward p q := by
  have hdue : p[m.pc]? = some p[m.pc] := Array.getElem?_eq_getElem hpc
  have hdue' : (p ++ q)[m.pc]? = some p[m.pc] := (Array.getElem?_append_left hpc).trans hdue
  rw [step_of_due hrunning hdue] at h ⊢
  rw [step_of_due hrunning hdue']
  exact dispatch_append hpc h q

/-! ## Whole runs -/

/-- Up to the moment at which the shorter run ends, the longer one is where it is. -/
theorem resume_append {n : Nat} (hbefore : ∀ j < n, ((m.start p).resume p j).phase = .running)
    (h : ¬((m.start p).resume p n).MissesLabel) (q : Program) :
    (m.start (p ++ q)).resume (p ++ q) n = ((m.start p).resume p n).onward p q := by
  induction n with
  | zero => exact goto_append (Nat.zero_le _) { m with steps := 0, stack := [] } q
  | succ n ih =>
    have hrunning := hbefore n n.lt_succ_self
    have hsame : (m.start (p ++ q)).resume (p ++ q) n = (m.start p).resume p n := by
      rw [ih (fun j hj => hbefore j (by omega)) (not_missesLabel_of_running hrunning)]
      exact onward_of_running hrunning q
    rw [resume_succ'] at h ⊢
    rw [resume_succ', hsame]
    exact step_append hrunning (pc_lt_of_resume_running hrunning) h q

/-- The run without a limit ends in the same way, or goes on. -/
theorem Ends.resume_append {final : Machine} (h : Ends p none m final) (hlabel : ¬final.MissesLabel)
    (q : Program) : (m.start (p ++ q)).resume (p ++ q) final.steps = final.onward p q := by
  obtain ⟨hexact, hbefore⟩ := h.exact
  have hresume := Machine.resume_append hbefore (hexact.symm ▸ hlabel) q
  rwa [hexact] at hresume

/-! ## How a run succeeds -/

/-- The run has come to its end with a `stop`. -/
def EndsWithStop (p : Program) (m final : Machine) : Prop :=
  ∃ n, ((m.start p).resume p n).phase = .running ∧
    p[((m.start p).resume p n).pc]? = some .stop ∧ final = ((m.start p).resume p n).step p

/-- A `stop` halts inside the program. -/
theorem EndsWithStop.phase_pc {final : Machine} (h : EndsWithStop p m final) :
    final.phase = .halted ∧ final.pc < p.size := by
  obtain ⟨n, hrunning, hdue, rfl⟩ := h
  rw [step_of_due hrunning hdue]
  exact ⟨rfl, pc_lt_of_resume_running hrunning⟩

/-- Control stays in the program or comes to its end. -/
theorem Leads.le_size {pc pc' : Nat} (h : Leads p pc pc') (hpc : pc < p.size) : pc' ≤ p.size := by
  rcases h with rfl | ⟨_, _, j, -, -, hfound, rfl⟩
  · exact hpc
  · exact Program.lt_size_of_findLabel hfound

/-- A machine that goes somewhere and halts has come to the end of the program. -/
theorem atEnd_of_goto {pc : Nat} (hpc : pc ≤ p.size) (h : (m.goto p pc).phase = .halted) :
    (m.goto p pc).AtEnd p := by
  refine ⟨h, ?_⟩
  rcases Nat.lt_or_eq_of_le hpc with hlt | heq
  · cases (if_pos hlt : (m.goto p pc).phase = .running).symm.trans h
  · exact heq

/-- A run that does not fail ends with a `stop` or at the end of the program. -/
theorem Ends.stop_or_atEnd {final : Machine} (h : Ends p none m final)
    (hhalted : final.phase = .halted) : EndsWithStop p m final ∨ final.AtEnd p := by
  rcases h.last_step with rfl | ⟨n, -, hrunning, hstep⟩
  · exact .inr (atEnd_of_goto (Nat.zero_le _) hhalted)
  · have hpc := pc_lt_of_resume_running hrunning
    have hdue := Array.getElem?_eq_getElem hpc
    rcases step_cases hrunning hdue with ⟨fault, hfail⟩ | ⟨hstop, -, -⟩ | ⟨m', pc, hleads, hgoto⟩
    · rw [hstep] at hfail
      cases hfail.1.symm.trans hhalted
    · exact .inl ⟨n, hrunning, hstop ▸ hdue, hstep.symm⟩
    · rw [hstep] at hgoto
      rw [hgoto] at hhalted ⊢
      exact .inr (atEnd_of_goto (hleads.le_size hpc) hhalted)

/-- Code behind a program is invisible to the runs that do not come to it, with a limit or without.
A run that ends with a `stop`, or fails for anything but a missing label, ends in the same way with
any code behind the program. A run that comes to the end of the program goes on at the first
instruction behind it: after as many turns it is in the same state, with that instruction due if
there is one. A run that succeeds is of one of these two kinds. A limit cuts both runs off in the
same state. -/
theorem append_ends {p : Program} {limit : Option Nat} {m final : Machine}
    (h : Ends p limit m final) (q : Program) :
    (EndsWithStop p m final ∨
        (∃ fault, final.FailedFor fault ∧ ∀ l, fault ≠ .unresolvedLabel l) →
      Ends (p ++ q) limit m final) ∧
    (final.AtEnd p →
      (∀ l ∈ limit, final.steps ≤ l) ∧
      (turn (p ++ q) limit)^[final.steps] (m.start (p ++ q)) =
        { final with
          pc := p.size
          phase := if 0 < q.size then .running else .halted
          result? := if 0 < q.size then none else some (.ok ()) }) ∧
    (final.phase = .halted → EndsWithStop p m final ∨ final.AtEnd p) := by
  rcases h.limit_cases with ⟨l, rfl, hrunning, rfl⟩ | ⟨hends, hroom⟩
  · refine ⟨fun _ => ?_, fun hend => (by cases hend.1), nofun⟩
    have hsame := resume_append (fun j hj => running_of_resume hrunning (Nat.le_of_lt hj))
      (not_missesLabel_of_running hrunning) q
    rw [onward_of_running hrunning] at hsame
    rw [ends_limit_iff, run_of_running (hsame ▸ hrunning), hsame]
  · obtain ⟨_, _, hended⟩ := h
    refine ⟨fun hkind => ?_, fun hend => ⟨hroom, ?_⟩, hends.stop_or_atEnd⟩
    · have hinside : ¬final.MissesLabel ∧ ¬final.AtEnd p := by
        rcases hkind with hstop | ⟨fault, hfault, hne⟩
        · obtain ⟨hhalted, hpc⟩ := hstop.phase_pc
          exact ⟨not_missesLabel_of_halted hhalted, fun hend => Nat.ne_of_lt hpc hend.2⟩
        · refine ⟨fun ⟨l, hl⟩ => hne l (hfault.unique hl), fun hend => ?_⟩
          cases hfault.1.symm.trans hend.1
      have hsame := hends.resume_append hinside.1 q
      rw [onward_of_not_atEnd hinside.2] at hsame
      exact Ends.of_room ⟨final.steps, hsame, hended⟩ hroom
    · rw [iterate_turn_start hroom, hends.resume_append (not_missesLabel_of_halted hend.1),
        onward_of_atEnd hend, goto]
      simp only [Array.size_append, Nat.lt_add_right_iff_pos]

/-- Code whose first label has the id of a label before it. A program that ends with a jump to its
last label goes on there, also if its limit is used up; one that stops and one that is cut off do
not. -/
theorem append_ends_shadowed :
    let q : Program := #[.label 5, .output 3]
    let ended : Program := #[.pushInt 1, .jumpIfNonZero 5, .stop, .label 5]
    let stopped : Program := #[.jump 5, .label 5, .stop]
    let looping : Program := #[.label 5, .jump 5]
    (turn (ended ++ q) (some 2))^[2] (start {} (ended ++ q)) =
      { run ended 2 {} with pc := 4, phase := .running, result? := none } ∧
    EndsWithStop stopped {} (run stopped 2 {}) ∧
      Ends (stopped ++ q) (some 2) {} (run stopped 2 {}) ∧
    (run looping 7 {}).FailedFor (.stepLimitExceeded 7) ∧
    Ends (looping ++ q) (some 7) {} (run looping 7 {}) := by
  intro q ended stopped looping
  have hend : (run ended 2 {}).AtEnd ended := by decide +kernel
  have hsteps : (run ended 2 {}).steps = 2 := by decide +kernel
  have hended : (resume stopped 2 (start {} stopped)).phase ≠ .running := by decide +kernel
  have hstop : EndsWithStop stopped {} (run stopped 2 {}) :=
    ⟨1, by decide +kernel, by decide +kernel,
      (run_of_ended hended).trans (resume_succ' stopped 1 _)⟩
  have hcut : (run looping 7 {}).FailedFor (.stepLimitExceeded 7) := by decide +kernel
  obtain ⟨-, hon, -⟩ := append_ends (ends_run ended 2 {}) q
  obtain ⟨hstopped, -, -⟩ := append_ends (ends_run stopped 2 {}) q
  obtain ⟨hlooping, -, -⟩ := append_ends (ends_run looping 7 {}) q
  refine ⟨?_, hstop, hstopped (.inl hstop), hcut, hlooping (.inr ⟨_, hcut, nofun⟩)⟩
  have hcount := congrArg (fun n => (turn (ended ++ q) (some 2))^[n] (start {} (ended ++ q))) hsteps
  exact hcount.symm.trans (hon hend).2

end Machine

end StackMachine
