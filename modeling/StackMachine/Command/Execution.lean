import StackMachine.Assembly.Source
import StackMachine.Command.Preset
import StackMachine.Machine

/-!
# Executing an assembled program

What is run is the program behind a prelude that stores the parameters, overridden as the user asks,
and then the presets. Nothing runs unless every override and every preset is accepted.
-/

namespace StackMachine.Command

/-- What a user may ask for besides the program. -/
structure RunOptions where
  /-- Parameters to override, by name, with what was typed for them. -/
  overrides : List (String × String) := []
  presets : List String := []
  maxSteps : Option Nat := none
  deriving DecidableEq

/-- Why there is nothing to run. -/
inductive BootFault where
  | override (fault : Parameter.Fault)
  | preset (fault : Preset.Fault)
  deriving DecidableEq

/-- The wording of a fault. -/
def BootFault.message : BootFault → String
  | override fault => fault.message
  | preset fault => fault.message

/-- The prelude that stores the overridden parameters and the presets. -/
def boot (header : Header) (opts : RunOptions) : Except BootFault Program :=
  match header.overrideAll opts.overrides with
  | .error fault => .error (.override fault)
  | .ok header =>
    match Preset.readAll opts.presets with
    | .error fault => .error (.preset fault)
    | .ok presets => .ok (header.prelude ++ Preset.prelude presets)

/-- The program to run. -/
def bootProgram (a : Assembly.Assembled) (opts : RunOptions) : Except BootFault Program :=
  (boot a.header opts).map a.program.withPrelude

/-- The wording of a run's failure. -/
def executionFailure (steps : Nat) (fault : Fault) : String :=
  s!"execution failed after {steps} steps [{fault.code}]: {fault.message}"

/-- The lines of a run's output, as they are printed. -/
def printedLines (lines : Array String) : String :=
  String.join (lines.toList.map (· ++ "\n"))

end StackMachine.Command
