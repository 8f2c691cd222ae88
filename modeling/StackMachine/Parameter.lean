import StackMachine.Memory
import StackMachine.Program
import StackMachine.Text.Blank
import StackMachine.Text.Shown

/-!
# Parameters

A program's header declares parameters: named values that are in memory before the program starts.
The declaration gives each one its kind and a default; a user may override the value but never the
name, the address or the kind. Overriding is by name and means the first parameter of that name; it
changes the parameter in place (`Parameter.set`, `Header.set`).

There are two ways to put the values into memory: `Header.prelude` is a program that stores them,
and `Header.cells` lists the stores.
-/

namespace StackMachine

/-- A named value for a memory cell. -/
structure Parameter where
  name : String
  address : Int64
  value : Value
  deriving DecidableEq

/-- The parameters of a program in the order of their declaration. -/
abbrev Header := List Parameter

namespace Parameter

/-- Why an override is refused. -/
inductive Fault where
  /-- No parameter has this name. -/
  | unknown (name : String)
  /-- The parameter is an integer and the text is none. -/
  | notInteger (name raw : String) (cause : Numeral.Fault)
  deriving DecidableEq

/-- The wording of a fault. -/
def Fault.message : Fault → String
  | unknown name => s!"unknown parameter `{name}`"
  | notInteger name raw cause =>
    s!"parameter `{name}` expects an integer, got {Text.shown raw}: {cause.message}"

/-- Replaces the value by what a user typed: an integer, blanks around it ignored, or the text as it
is, by the kind of the value it replaces. The parameter is changed in place, as the last thing that
is done. -/
def set (raw : String) : ExceptT Fault (StateM Parameter) Unit := do
  let p ← get
  let value ← match p.value with
    | .int _ =>
      match Numeral.readInt (Text.trim raw.toList) with
      | .error cause => throw (.notInteger p.name raw cause)
      | .ok n => pure (.int n)
    | .str _ => pure (.str raw)
  modify fun p => { p with value }

/-- The word for the parameter's kind in a directive. -/
def kindWord (p : Parameter) : String :=
  match p.value with
  | .int _ => "int"
  | .str _ => "str"

/-- The literal that denotes the parameter's value. -/
def literal (p : Parameter) : String :=
  match p.value with
  | .int n => String.ofList (Numeral.decimal n.toInt)
  | .str s => Quoted.quote s

/-- The directive that declares the parameter, as a line. -/
def directive (p : Parameter) : String :=
  ";@param " ++ p.name ++ " " ++ String.ofList (Numeral.decimal p.address.toInt) ++ " "
    ++ p.kindWord ++ " " ++ p.literal ++ "\n"

/-- The instructions that store the parameter's value. -/
def storing (p : Parameter) : List Instruction := [.push p.value, .storeMemory p.address]

end Parameter

namespace Header

/-- The first parameter of this name. -/
def get? (h : Header) (name : String) : Option Parameter := h.find? (·.name == name)

/-- Sets the first parameter of this name, in place: whether that was accepted, and the header
then. -/
def set (name raw : String) : Header → Except Parameter.Fault Unit × Header
  | [] => (.error (.unknown name), [])
  | p :: ps =>
    if p.name = name then
      let (result, p) := (Parameter.set raw).run p
      (result, p :: ps)
    else
      let (result, ps) := set name raw ps
      (result, p :: ps)

/-- Sets parameters in the order of the list; the first one that is refused decides. -/
def overrideAll (h : Header) : List (String × String) → Except Parameter.Fault Header
  | [] => .ok h
  | (name, raw) :: rest =>
    match h.set name raw with
    | (.error fault, _) => .error fault
    | (.ok (), h) => overrideAll h rest

/-- The program that stores the parameters. -/
def prelude (h : Header) : Program := (h.flatMap Parameter.storing).toArray

/-- The stores that put the parameters into memory. -/
def cells (h : Header) : List (Int64 × Slot) := h.map fun p => (p.address, some p.value)

/-- The directives that declare the parameters. -/
def text (h : Header) : String := String.join (h.map Parameter.directive)

end Header

end StackMachine
