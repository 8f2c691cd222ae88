import StackMachine.Text.Cut

/-!
# Arguments of a command line

A command line is a list of arguments: options, which begin with a dash, and positional arguments,
which may stand before, between and behind them. An option that takes a value takes it from the same
argument (`--name=value`, `-n=value`, `-nvalue`) or from the next one, which must not begin with a
dash itself; a dash alone counts as an ordinary word. Behind `--` every argument is positional.
Names are never abbreviated, and an option is given once unless it may be repeated.
-/

namespace StackMachine.Command

/-- An option of a command line. -/
structure OptionSpec where
  /-- The name behind two dashes. -/
  name : String
  /-- The letter behind one dash. -/
  letter : Option Char := none
  takesValue : Bool := true
  repeatable : Bool := false
  deriving DecidableEq

/-- An argument as it is meant. -/
inductive Argument where
  | positional (word : String)
  /-- An option with its value; the value of an option that takes none is empty. -/
  | option (name value : String)
  deriving DecidableEq

/-- A word that can be positional or the value of an option: a dash alone, or one that does not
begin with a dash. -/
def isWord (arg : String) : Bool :=
  match arg.toList with
  | '-' :: _ :: _ => false
  | _ => true

/-- An option as it stands in one argument, with the value that stands there too. -/
structure OptionUse where
  spec : OptionSpec
  attached : Option String

/-- The option that an argument names behind two dashes. -/
def longOption? (specs : List OptionSpec) (body : List Char) : Option OptionUse :=
  match Text.cut '=' body with
  | some (name, value) =>
    (specs.find? (·.name == String.ofList name)).map fun spec => ⟨spec, some (String.ofList value)⟩
  | none => (specs.find? (·.name == String.ofList body)).map fun spec => ⟨spec, none⟩

/-- The option that an argument names behind one dash. -/
def shortOption? (specs : List OptionSpec) (letter : Char) (body : List Char) : Option OptionUse :=
  (specs.find? (·.letter == some letter)).map fun spec =>
    match body with
    | [] => ⟨spec, none⟩
    | '=' :: value => ⟨spec, some (String.ofList value)⟩
    | value => ⟨spec, some (String.ofList value)⟩

/-- The option that an argument names, or `none` for a word. -/
def readOption? (specs : List OptionSpec) (arg : String) : Option (Option OptionUse) :=
  match arg.toList with
  | '-' :: '-' :: body => some (longOption? specs body)
  | '-' :: letter :: body => some (shortOption? specs letter body)
  | _ => none

/-- Tells options and positional arguments apart; `none` if an option is unknown, lacks its value or
has one that it does not take. -/
def readArguments (specs : List OptionSpec) : List String → Option (List Argument)
  | [] => some []
  | arg :: rest =>
    if arg = "--" then some (rest.map .positional)
    else
      match readOption? specs arg with
      | none => (readArguments specs rest).map (.positional arg :: ·)
      | some none => none
      | some (some use) =>
        match use.spec.takesValue, use.attached with
        | false, some _ => none
        | false, none => (readArguments specs rest).map (.option use.spec.name "" :: ·)
        | true, some value => (readArguments specs rest).map (.option use.spec.name value :: ·)
        | true, none =>
          match rest with
          | [] => none
          | value :: rest =>
            if isWord value then
              (readArguments specs rest).map (.option use.spec.name value :: ·)
            else none

/-- The positional arguments in order. -/
def positionals (args : List Argument) : List String :=
  args.filterMap fun
    | .positional word => some word
    | .option _ _ => none

/-- The values given for an option in order. -/
def valuesOf (args : List Argument) (name : String) : List String :=
  args.filterMap fun
    | .positional _ => none
    | .option n value => if n = name then some value else none

/-- No option is given twice that may not be repeated. -/
def withinCounts (specs : List OptionSpec) (args : List Argument) : Bool :=
  specs.all fun spec => spec.repeatable || (valuesOf args spec.name).length ≤ 1

/-- The arguments as they are meant, if they are as the options ask for. -/
def parseArguments (specs : List OptionSpec) (args : List String) : Option (List Argument) := do
  let args ← readArguments specs args
  guard (withinCounts specs args)
  return args

end StackMachine.Command
