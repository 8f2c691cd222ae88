import StackMachine.Command.Arguments
import StackMachine.Command.Execution

/-!
# The two command lines

The program has a command line with three commands. An executable that carries a program has one of
its own: an option for every parameter, a limit on the number of instructions, and presets.
-/

namespace StackMachine.Command

/-- A limit on the number of instructions, as it is typed. -/
def maxStepsOption : OptionSpec := { name := "max-steps" }

/-- The limit that is given; the outer `none` is a text that is no count. -/
def readMaxSteps (args : List Argument) : Option (Option Nat) :=
  match valuesOf args maxStepsOption.name with
  | [] => some none
  | raw :: _ => (Numeral.readCount raw.toList).toOption.map some

/-! ## The commands -/

/-- What a command line asks for. -/
inductive Invocation where
  /-- Assembles a file and runs it. -/
  | run (file : String) (opts : RunOptions)
  /-- Writes a copy of the executable with a file as its payload. -/
  | embed (file output : String)
  /-- Prints an assembled file as text or as JSON. -/
  | dump (file : String) (json : Bool)
  deriving DecidableEq

/-- The file that an invocation reads. -/
def Invocation.file : Invocation → String
  | run file _ => file
  | embed file _ => file
  | dump file _ => file

/-- The override that is typed as `NAME=VALUE`: the name without blanks around it, which must not be
empty, and the value as it is. -/
def readOverride? (raw : String) : Option (String × String) :=
  match Text.cut '=' raw.toList with
  | none => none
  | some (name, value) =>
    match Text.trim name with
    | [] => none
    | c :: cs => some (String.ofList (c :: cs), String.ofList value)

/-- The wording of a refused override. -/
def overrideRefusal (raw : String) : String := s!"expected NAME=VALUE, got '{raw}'"

/-- A path is not empty. -/
def readPath? (path : String) : Option String := if path = "" then none else some path

/-- The arguments of the command that runs a file. -/
def readRun (args : List String) : Option Invocation := do
  let args ← parseArguments [{ name := "param", repeatable := true }, maxStepsOption] args
  let overrides ← (valuesOf args "param").mapM readOverride?
  let maxSteps ← readMaxSteps args
  match positionals args with
  | [] => none
  | file :: presets => return .run (← readPath? file) { overrides, presets, maxSteps }

/-- The arguments of the command that writes an executable. -/
def readEmbed (args : List String) : Option Invocation := do
  let args ← parseArguments [{ name := "output", letter := some 'o' }] args
  match positionals args, valuesOf args "output" with
  | [file], [output] => return .embed (← readPath? file) (← readPath? output)
  | _, _ => none

/-- The arguments of the command that prints a file. -/
def readDump (args : List String) : Option Invocation := do
  let args ← parseArguments [{ name := "json", takesValue := false }] args
  match positionals args with
  | [file] => return .dump (← readPath? file) (!(valuesOf args "json").isEmpty)
  | _ => none

/-- The command that the arguments ask for. -/
def Invocation.read : List String → Option Invocation
  | "run" :: args => readRun args
  | "embed" :: args => readEmbed args
  | "dump" :: args => readDump args
  | _ => none

/-! ## An executable with a program -/

/-- Why the parameters of a program give no command line. -/
inductive NameClash where
  /-- The name is that of an option every such executable has. -/
  | reserved (name : String)
  /-- Two parameters have the name. -/
  | repeated (name : String)
  deriving DecidableEq

/-- The wording of a clash. -/
def NameClash.message : NameClash → String
  | reserved name => s!"parameter `{name}` clashes with a built-in option"
  | repeated name => s!"parameter `{name}` is declared twice"

/-- The names that no parameter may have. -/
def reservedNames : List String := ["help", "version", "max-steps", "presets"]

/-- The first clash of the names in order, `seen` being the ones before them. -/
def nameClash? (seen : List String) : List String → Option NameClash
  | [] => none
  | name :: names =>
    if reservedNames.contains name then some (.reserved name)
    else if seen.contains name then some (.repeated name)
    else nameClash? (name :: seen) names

/-- The options of an executable with a program. -/
def programOptions (header : Header) : Except NameClash (List OptionSpec) :=
  match nameClash? [] (header.map (·.name)) with
  | some clash => .error clash
  | none => .ok (maxStepsOption :: header.map fun p => { name := p.name })

/-- What the arguments of an executable with a program ask for; the overrides are in the order of
the declarations. -/
def readProgramOptions (header : Header) (specs : List OptionSpec) (args : List String) :
    Option RunOptions := do
  let args ← parseArguments specs args
  let maxSteps ← readMaxSteps args
  let overrides :=
    header.filterMap fun p => (valuesOf args p.name).head?.map fun raw => (p.name, raw)
  return { overrides, presets := positionals args, maxSteps }

end StackMachine.Command
