import StackMachine.Text.Numeral

/-!
# Values and slots

The machine holds integers and strings and never turns one into the other. A slot of the stack or of
memory may also be undefined, which is what reading a cell that was never written gives.
-/

namespace StackMachine

/-- An integer or a string. -/
inductive Value where
  | int (n : Int64)
  | str (s : String)
  deriving DecidableEq

/-- The content of a place on the stack or in memory; `none` is undefined. -/
abbrev Slot := Option Value

/-- What a slot holds. -/
inductive Kind where
  | int
  | string
  | undefined
  deriving DecidableEq

/-- The name of a kind in messages. -/
def Kind.name : Kind → String
  | int => "int"
  | string => "string"
  | undefined => "undefined"

namespace Value

/-- The truth values are the integers one and zero. -/
def ofBool (b : Bool) : Value := .int (if b then 1 else 0)

/-- The kind of a value. -/
def kind : Value → Kind
  | int _ => .int
  | str _ => .string

/-- The integer, if the value is one. -/
def int? : Value → Option Int64
  | int n => some n
  | str _ => none

/-- The string, if the value is one. -/
def str? : Value → Option String
  | int _ => none
  | str s => some s

/-- An integer in decimal, a string as it is. -/
def text : Value → String
  | int n => String.ofList (Numeral.decimal n.toInt)
  | str s => s

end Value

namespace Slot

/-- The kind of a slot. -/
def kind : Slot → Kind
  | some v => v.kind
  | none => .undefined

/-- The text of a slot's value, or the word for an undefined one. -/
def text : Slot → String
  | some v => v.text
  | none => Kind.undefined.name

end Slot

end StackMachine
