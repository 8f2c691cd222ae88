import Mathlib.Data.List.Forall2
import StackMachine.Proofs.Limit
import StackMachine.Proofs.Relocation
import StackMachine.Proofs.Rendering

/-!
# The cause of a fault

The faults of a run are explained by the text of its program. A fault comes from the step limit, or
from the instruction that was due, and that instruction shows what is wrong (`Cause`): it does not
find its operands, it divides by an integer zero, its template has a placeholder without a known
verb, or it jumps to a label that the program does not have. `cause_of_step` says so of a step and
`Ends.cause` of a run.

Of templates, that a placeholder lacks its argument is not among the causes, because a template
takes as many arguments as it is given (`misspelt_of_render`); and a template with a misspelt
placeholder is not written as tokens, in whatever way it is read (`written_ne_of_misspelt`). So a
program whose jumps have labels and whose templates are written as tokens fails only for its
operands, at a divisor of zero or at the limit (`fault_explained`).
-/

namespace StackMachine

/-! ## Templates -/

namespace Template

/-- The template is written as tokens. -/
def WellFormed (template : String) : Prop := ∃ ts, template.toList = written ts

/-- What is wrong with the placeholder whose text stands behind a percent sign, whatever its
argument is: the template ends before the verb, or the character in the place of the verb names
none. -/
inductive Misspelt : List Char → Reason → Prop
  | noVerb (s : Spec) : Misspelt s.chars .noVerb
  | unknownVerb {s : Spec} {c : Char} {rest : List Char} :
    s.Ends (c :: rest) → (∀ verb : Verb, c ≠ verb.char) →
      Misspelt (s.chars ++ c :: rest) (.unknownVerb c)

/-- Behind tokens the template has a placeholder that is misspelt. -/
def HasMisspelt (template : String) (reason : Reason) : Prop :=
  ∃ ts rest, template.toList = written ts ++ '%' :: rest ∧ rest.head? ≠ some '%' ∧
    Misspelt rest reason

/-- A misspelt placeholder is none. -/
theorem Misspelt.ne_placeholder {rest : List Char} {reason : Reason} (h : Misspelt rest reason)
    (p : Placeholder) (behind : List Char) : rest ≠ p.chars ++ behind := by
  intro heq
  rw [Placeholder.chars_append] at heq
  cases h with
  | noVerb s =>
    have hends : s.Ends [] := ⟨Text.stops_nil _, fun _ => Text.stops_nil _⟩
    rw [← s.chars.append_nil] at heq
    cases (Spec.chars_append_inj hends (p.ends_verb behind) heq).2
  | unknownVerb hends hverb =>
    have hrest := (Spec.chars_append_inj hends (p.ends_verb behind) heq).2
    exact hverb p.verb (List.cons.inj hrest).1

/-- With a misspelt placeholder in it, a template is not written as tokens. -/
theorem written_ne_of_misspelt {rest : List Char} {reason : Reason} (h : Misspelt rest reason)
    (hrest : rest.head? ≠ some '%') (ts ts' : List Token) :
    written ts ++ '%' :: rest ≠ written ts' := by
  intro heq
  induction ts generalizing ts' with
  | nil =>
    cases ts' with
    | nil => cases heq
    | cons t' ts' =>
      cases t' with
      | literal c hc => exact hc (List.cons.inj heq).1.symm
      | escape =>
        have hbehind : rest = '%' :: written ts' := (List.cons.inj heq).2
        exact hrest (hbehind ▸ List.head?_cons)
      | placeholder p => exact h.ne_placeholder p (written ts') (List.cons.inj heq).2
  | cons t ts ih =>
    have hsplit : written (t :: ts) ++ '%' :: rest = t.chars ++ (written ts ++ '%' :: rest) :=
      List.append_assoc ..
    rw [hsplit] at heq
    cases ts' with
    | nil => exact t.chars_ne_nil (List.append_eq_nil_iff.mp heq).1
    | cons t' ts' => exact ih ts' (Token.chars_append_inj heq).2

/-- A template with a misspelt placeholder is not well formed. -/
theorem HasMisspelt.not_wellFormed {template : String} {reason : Reason}
    (h : HasMisspelt template reason) : ¬WellFormed template := by
  obtain ⟨ts, rest, hcs, hrest, hmisspelt⟩ := h
  rintro ⟨ts', hcs'⟩
  exact written_ne_of_misspelt hmisspelt hrest ts ts' (hcs.symm.trans hcs')

/-- A template that is refused, whatever its arguments are, has a misspelt placeholder: it does not
lack an argument. -/
theorem misspelt_of_render {template : String} {args : List Slot} {reason : Reason}
    (hargs : arity template.toList ≤ args.length)
    (h : render template args = .error (.malformed reason)) : HasMisspelt template reason := by
  have hpieces : renderPieces (pieces template.toList) args = .error (.malformed reason) :=
    map_eq_error_iff.mp h
  rcases written_or_wrong template template.toList args with
    ⟨ts, used, left, hcs, rfl, hfits⟩ |
      ⟨ts, used, left, rest, fault, hcs, hrest, rfl, hfits, hwrong⟩
  · rw [render_of_written hcs hfits left] at h
    cases h
  · obtain ⟨refusal, hrender, hfault⟩ := render_of_wrong hcs hrest hfits hwrong
    obtain rfl : refusal = .malformed reason := Except.error.inj (hrender.symm.trans h)
    refine ⟨ts, rest, hcs, hrest, ?_⟩
    cases hwrong with
    | noVerb s _ =>
      cases hfault
      exact .noVerb s
    | noArgument _ =>
      cases hfault
      exact absurd hpieces (renderPieces_ne_noArgument hargs _)
    | unknownVerb _ _ hends hverb =>
      cases hfault
      exact .unknownVerb hends hverb
    | wrongKind _ _ _ _ => cases hfault

end Template

/-! ## Instructions -/

/-- The slots that came off the stack are those that were accepted, the top first. -/
theorem Stack.popEach_eq_ok {accept : Slot → Except Fault α} {n : Nat} {stack : Stack}
    {values : Vector α n} (h : (popEach accept n stack).1 = .ok values) :
    ∃ slots, stack = slots ++ (popEach accept n stack).2 ∧ Accepted accept slots values.toList := by
  obtain ⟨slots, values', rest, rfl, hslots, hpop⟩ | ⟨_, _, _, _, _, -, -, -, -, hpop⟩ |
      ⟨_, -, -, hpop⟩ :=
    popEach_cases accept n stack
  · rw [hpop] at h ⊢
    cases h
    exact ⟨slots, rfl, hslots⟩
  · rw [hpop] at h
    cases h
  · rw [hpop] at h
    cases h

/-- Two integers that came off the stack were on its top. -/
theorem Stack.eq_of_popInts_two {stack : Stack} {operands : Vector Int64 2}
    (h : (popInts 2 stack).1 = .ok operands) :
    ∃ top below rest, operands = #v[top, below] ∧
      stack = some (.int top) :: some (.int below) :: rest := by
  obtain ⟨slots, hstack, hslots⟩ := popEach_eq_ok h
  obtain ⟨⟨list⟩, hsize⟩ := operands
  match list, hsize with
  | [top, below], _ =>
    obtain _ | ⟨htop, _ | ⟨hbelow, _ | _⟩⟩ := hslots
    rw [selects_asInt.ok htop, selects_asInt.ok hbelow] at hstack
    exact ⟨top, below, _, rfl, hstack⟩

namespace Instruction

variable {memory : Memory} {stack : Stack}

/-- A division fails by itself where the integer zero comes off the stack, and another integer
behind it. -/
theorem exec_divide_error (h : (divide.exec memory stack).outcome = .error .divisionByZero) :
    ∃ left, stack = some (.int 0) :: some (.int left) :: (divide.exec memory stack).stack := by
  rcases Effect.after_error h with hpop | ⟨operands, hpop, hquotient⟩
  · rcases Stack.isOperand_of_popEach Stack.isOperand_of_asInt hpop with hop | ⟨_, _, hop⟩ <;>
      cases hop
  · obtain ⟨top, below, rest, rfl, rfl⟩ := Stack.eq_of_popInts_two hpop
    have hzero : top = 0 := by
      by_contra hdivisor
      simp [quotient, hdivisor, Effect.pushing] at hquotient
    rw [hzero]
    exact ⟨below, rfl⟩

/-- An instruction reports a template that is its own, and has a misspelt placeholder. -/
theorem exec_format_error {template : String} {reason : Template.Reason}
    (h : ((format template).exec memory stack).outcome = .error (.invalidFormat template reason)) :
    Template.HasMisspelt template reason := by
  rcases Effect.after_error h with hpop | ⟨args, -, hrender⟩
  · rcases Stack.isOperand_of_popSlots hpop with hop | ⟨_, _, hop⟩ <;> cases hop
  · split at hrender
    · rename_i refusal hrefusal
      have hargs : Template.arity template.toList ≤ args.toList.length := by simp
      cases refusal with
      | malformed reason' =>
        cases hrender
        exact Template.misspelt_of_render hargs hrefusal
      | mismatch _ _ => cases hrender
    · cases hrender

end Instruction

/-! ## Runs -/

namespace Machine

variable {p : Program} {m : Machine} {limit : Option Nat} {fault : Fault}

/-- What the instruction that is due shows of the fault that it fails with. -/
inductive Cause (p : Program) (m : Machine) : Fault → Prop
  /-- It does not find its operands. -/
  | operand {fault : Fault} : fault.IsOperand → Cause p m fault
  /-- The divisor that it takes off the stack is zero. -/
  | divisor (left : Int64) :
    p[m.pc]? = some .divide → m.stack = some (.int 0) :: some (.int left) :: (m.step p).stack →
      Cause p m .divisionByZero
  /-- Its template has a misspelt placeholder. -/
  | template {template : String} {reason : Template.Reason} :
    p[m.pc]? = some (.format template) → Template.HasMisspelt template reason →
      Cause p m (.invalidFormat template reason)
  /-- It jumps to a label that the program does not have. -/
  | label {i : Instruction} {l : Int64} :
    p[m.pc]? = some i → i.jumpLabel? = some l → .label l ∉ p → Cause p m (.unresolvedLabel l)

/-- A step that fails has a cause. -/
theorem cause_of_step (hrunning : m.phase = .running) (h : (m.step p).FailedFor fault) :
    Cause p m fault := by
  cases hdue : p[m.pc]? with
  | none =>
    rw [step_of_end hrunning hdue] at h
    cases h.1
  | some i =>
    have hstep := step_of_due hrunning hdue
    rw [hstep] at h
    rcases phase_dispatch_cases m p i with
      ⟨fault', houtcome, hfailed⟩ | ⟨l, houtcome, hl, hfailed⟩ | hphase | hphase
    · obtain rfl := hfailed.unique h
      rcases Instruction.exec_error_cases houtcome with hop | ⟨rfl, rfl⟩ |
        ⟨template, reason, rfl, rfl⟩
      · exact .operand hop
      · obtain ⟨left, hstack⟩ := Instruction.exec_divide_error houtcome
        refine .divisor left hdue ?_
        rwa [hstep, dispatch_of_failed h]
      · exact .template hdue (Instruction.exec_format_error houtcome)
    · obtain rfl := hfailed.unique h
      exact .label hdue (Instruction.exec_ok_jump houtcome) (Program.findLabel_eq_none_iff.mp hl)
    · cases hphase.symm.trans h.1
    · cases hphase.symm.trans h.1

/-- A run that fails has come to its limit, or its last instruction shows the cause. -/
theorem Ends.cause {final : Machine} (h : Ends p limit m final) (hfault : final.FailedFor fault) :
    (∃ l, limit = some l ∧ fault = .stepLimitExceeded l ∧ final.steps = l) ∨
    ∃ n, final.steps = n + 1 ∧ ((m.start p).resume p n).phase = .running ∧
      ((m.start p).resume p n).step p = final ∧ Cause p ((m.start p).resume p n) fault := by
  rcases h.failing_step hfault with hlimit | ⟨n, hsteps, hrunning, hstep⟩
  · exact .inl hlimit
  · exact .inr ⟨n, hsteps, hrunning, hstep, cause_of_step hrunning (hstep ▸ hfault)⟩

/-- Every fault of a run is explained by the program. A label that is not resolved is the target of
a jump and is not there. A template that is refused is one of the program, is not written as tokens,
and has a placeholder without a verb or with an unknown one. At a division by zero the last
instruction was a division, and the divisor that it took off the stack was the integer zero. A limit
is reported where it is the limit of the run and as many instructions were counted. So a program
whose jumps have labels and whose templates are written as tokens can fail only for its operands, at
a divisor or at the limit. -/
theorem fault_explained {p : Program} {limit : Option Nat} {m final : Machine} {fault : Fault}
    (h : Ends p limit m final) (hfault : final.FailedFor fault) :
    (∀ l, fault = .unresolvedLabel l → p.JumpsTo l ∧ .label l ∉ p) ∧
    (∀ template reason, fault = .invalidFormat template reason →
      .format template ∈ p ∧ ¬Template.WellFormed template ∧ Template.HasMisspelt template reason) ∧
    (fault = .divisionByZero → .divide ∈ p ∧
      ∃ n left, ((m.start p).resume p n).step p = final ∧
        p[((m.start p).resume p n).pc]? = some .divide ∧
        ((m.start p).resume p n).stack = some (.int 0) :: some (.int left) :: final.stack) ∧
    (∀ l, fault = .stepLimitExceeded l → limit = some l ∧ final.steps = l) ∧
    ((∀ l, p.JumpsTo l → .label l ∈ p) →
      (∀ template, .format template ∈ p → Template.WellFormed template) →
      fault = .stackUnderflow ∨ (∃ expected found, fault = .typeMismatch expected found) ∨
      fault = .divisionByZero ∨ ∃ l, limit = some l ∧ fault = .stepLimitExceeded l) := by
  rcases h.cause hfault with ⟨l, rfl, rfl, hsteps⟩ | ⟨n, -, -, hstep, hcause⟩
  · refine ⟨nofun, nofun, nofun, ?_, fun _ _ => .inr (.inr (.inr ⟨l, rfl, rfl⟩))⟩
    rintro l' ⟨⟩
    exact ⟨rfl, hsteps⟩
  · cases hcause with
    | operand hop =>
      rcases hop with rfl | ⟨expected, found, rfl⟩
      · exact ⟨nofun, nofun, nofun, nofun, fun _ _ => .inl rfl⟩
      · exact ⟨nofun, nofun, nofun, nofun, fun _ _ => .inr (.inl ⟨expected, found, rfl⟩)⟩
    | divisor left hdue hstack =>
      rw [hstep] at hstack
      exact ⟨nofun, nofun, fun _ => ⟨Array.mem_of_getElem? hdue, n, left, hstep, hdue, hstack⟩,
        nofun, fun _ _ => .inr (.inr (.inl rfl))⟩
    | template hdue hmisspelt =>
      refine ⟨nofun, ?_, nofun, nofun, fun _ hwritten => ?_⟩
      · rintro template reason ⟨⟩
        exact ⟨Array.mem_of_getElem? hdue, hmisspelt.not_wellFormed, hmisspelt⟩
      · exact absurd (hwritten _ (Array.mem_of_getElem? hdue)) hmisspelt.not_wellFormed
    | label hdue hjump habsent =>
      have hjumps := Program.jumpsTo_of_mem (Array.mem_of_getElem? hdue) hjump
      refine ⟨?_, nofun, nofun, nofun, fun hlabels _ => absurd (hlabels _ hjumps) habsent⟩
      rintro l ⟨⟩
      exact ⟨hjumps, habsent⟩

/-- A program whose jump has a label and whose template is written as tokens fails at a divisor of
zero, and from no memory for its text. Two that do fail for their text: a percent sign ends a
template, and a label is missing. -/
theorem fault_explained_at_divisor :
    let p : Program := #[.pushInt 6, .jump 2, .format "%d", .label 2, .pushInt 0, .divide]
    (run p 9 {}).FailedFor .divisionByZero ∧
    (∃ n left, p[((start {} p).resume p n).pc]? = some .divide ∧
      ((start {} p).resume p n).stack = some (.int 0) :: some (.int left) :: (run p 9 {}).stack) ∧
    (∀ memory final fault, Ends p none { memory } final → final.FailedFor fault →
      (∀ l, fault ≠ .unresolvedLabel l) ∧
        ∀ template reason, fault ≠ .invalidFormat template reason) ∧
    (run #[.pushInt 1, .format "50%"] 9 {}).FailedFor (.invalidFormat "50%" .noVerb) ∧
    ¬Template.WellFormed "50%" ∧
    (run #[.label 2, .jump 3] 9 {}).FailedFor (.unresolvedLabel 3) ∧
    .label 3 ∉ (#[.label 2, .jump 3] : Program) := by
  intro p
  have hlabels : ∀ l, p.JumpsTo l → .label l ∈ p := by
    intro l hl
    obtain rfl : l = 2 := by simpa [Program.JumpsTo, p] using hl
    simp [p]
  have hwritten : ∀ template, .format template ∈ p → Template.WellFormed template := by
    intro template htemplate
    obtain rfl : template = "%d" := by simpa [p] using htemplate
    exact ⟨[.placeholder ⟨⟨[], [], nofun, nofun, nofun⟩, .decimal⟩], by decide⟩
  have hdivision : (run p 9 {}).FailedFor .divisionByZero := by decide +kernel
  have htemplate : (run #[.pushInt 1, .format "50%"] 9 {}).FailedFor
      (.invalidFormat "50%" .noVerb) := by decide +kernel
  have hlabel : (run #[.label 2, .jump 3] 9 {}).FailedFor (.unresolvedLabel 3) := by decide +kernel
  obtain ⟨-, n, left, -, hdue, hstack⟩ := (fault_explained (ends_run p 9 {}) hdivision).2.2.1 rfl
  obtain ⟨-, hrefused, -⟩ := (fault_explained (ends_run _ 9 {}) htemplate).2.1 _ _ rfl
  obtain ⟨-, habsent⟩ := (fault_explained (ends_run _ 9 {}) hlabel).1 _ rfl
  refine ⟨hdivision, ⟨n, left, hdue, hstack⟩, ?_, htemplate, hrefused, hlabel, habsent⟩
  intro memory final fault hends hfault
  rcases (fault_explained hends hfault).2.2.2.2 hlabels hwritten with
    rfl | ⟨_, _, rfl⟩ | rfl | ⟨_, hlimit, -⟩
  · exact ⟨nofun, nofun⟩
  · exact ⟨nofun, nofun⟩
  · exact ⟨nofun, nofun⟩
  · cases hlimit

end Machine

end StackMachine
