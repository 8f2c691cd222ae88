import StackMachine.Template

/-!
# Faults

Why a run fails. Each fault has a code, which names its class, and a message.
-/

namespace StackMachine

/-- Why an instruction, or a run, fails. -/
inductive Fault where
  /-- A value was wanted from an empty stack. -/
  | stackUnderflow
  /-- The value on top is of another kind. -/
  | typeMismatch (expected found : Kind)
  /-- The divisor is zero. -/
  | divisionByZero
  /-- No label of the program has this id. -/
  | unresolvedLabel (label : Int64)
  /-- The template has a wrong placeholder. -/
  | invalidFormat (template : String) (reason : Template.Reason)
  /-- The run has used up its instructions. -/
  | stepLimitExceeded (limit : Nat)
  deriving DecidableEq

namespace Fault

/-- The class of a fault. -/
def code : Fault → String
  | stackUnderflow => "E-VM-STACK-UNDERFLOW"
  | typeMismatch _ _ => "E-VM-TYPE"
  | divisionByZero => "E-VM-DIV-ZERO"
  | unresolvedLabel _ => "E-VM-LABEL"
  | invalidFormat _ _ => "E-VM-FORMAT"
  | stepLimitExceeded _ => "E-VM-STEP-LIMIT"

/-- The wording of a fault. -/
def message : Fault → String
  | stackUnderflow => "stack underflow"
  | typeMismatch expected found =>
    s!"type mismatch: expected {expected.name} from stack, got {found.name}"
  | divisionByZero => "division by zero"
  | unresolvedLabel label => s!"jump label not found: {(Value.int label).text}"
  | invalidFormat template reason => s!"invalid format template \"{template}\": {reason.message}"
  | stepLimitExceeded limit => s!"step limit of {limit} instructions exceeded"

/-- The fault of an instruction whose template does not render. -/
def ofTemplate (template : String) : Template.Fault → Fault
  | .malformed reason => invalidFormat template reason
  | .mismatch expected found => typeMismatch expected found

end Fault

end StackMachine
