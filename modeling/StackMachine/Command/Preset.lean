import StackMachine.Parameter
import StackMachine.Text.Cut

/-!
# Presets

A user may set memory cells before a run with presets, `ADDRESS:VALUE`, two integers with blanks
around them or not. They are stored in the order in which they are given, so the last one for an
address counts.
-/

namespace StackMachine.Command

/-- An integer for a memory cell. -/
structure Preset where
  address : Int64
  value : Int64
  deriving DecidableEq

namespace Preset

/-- Why a text is no preset. -/
inductive Fault where
  /-- There is no colon. -/
  | noColon (raw : String)
  /-- What stands before the first colon is no integer. -/
  | address (raw : String) (cause : Numeral.Fault)
  /-- What stands behind the first colon is no integer. -/
  | value (raw : String) (cause : Numeral.Fault)
  deriving DecidableEq

/-- The wording of a fault. -/
def Fault.message : Fault → String
  | noColon raw => s!"memory preset {Text.shown raw} must look like ADDR:VALUE"
  | address raw cause => s!"invalid address in memory preset {Text.shown raw}: {cause.message}"
  | value raw cause => s!"invalid value in memory preset {Text.shown raw}: {cause.message}"

/-- The preset that a text denotes; the address is read before the value. -/
def read (raw : String) : Except Fault Preset :=
  match Text.cut ':' raw.toList with
  | none => .error (.noColon raw)
  | some (before, after) =>
    match Numeral.readInt (Text.trim before) with
    | .error cause => .error (.address raw cause)
    | .ok address =>
      match Numeral.readInt (Text.trim after) with
      | .error cause => .error (.value raw cause)
      | .ok value => .ok { address, value }

/-- The presets that texts denote; the first text that is none decides. -/
def readAll (raws : List String) : Except Fault (List Preset) := raws.mapM read

/-- The instructions that store a preset. -/
def storing (p : Preset) : List Instruction := [.pushInt p.value, .storeMemory p.address]

/-- The program that stores presets. -/
def prelude (presets : List Preset) : Program := (presets.flatMap storing).toArray

end Preset

end StackMachine.Command
