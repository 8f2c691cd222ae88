import StackMachine.Text.Numeral

/-!
# JSON values

The values of JSON texts. A number is kept as an integer where it is written as one, and otherwise
as the text it is written in, because nothing here wants a fraction. A string may be written with an
escape for one half of a surrogate pair alone; such a string denotes no text, and is a value all the
same.
-/

namespace StackMachine

/-- A JSON value. -/
inductive Json where
  | null
  | bool (b : Bool)
  /-- A number written without fraction and exponent, and not as minus zero. -/
  | int (n : Int)
  /-- Any other number, as it is written. -/
  | real (written : List Char)
  /-- A string, with the text that it denotes if it denotes one. -/
  | string (text : Option String)
  | array (items : List Json)
  | object (members : List (Option String × Json))

namespace Json

/-- The string that denotes a text. -/
def ofString (s : String) : Json := .string (some s)

/-- The number equal to a word. -/
def ofWord (n : Int64) : Json := .int n.toInt

/-- The object with these members. -/
def ofMembers (members : List (String × Json)) : Json :=
  .object (members.map fun m => (some m.1, m.2))

/-- The text that a string denotes. -/
def text? : Json → Option String
  | .string text => text
  | _ => none

/-- The word that an integer is equal to. -/
def word? : Json → Option Int64
  | .int n => Numeral.word? n
  | _ => none

/-- The values of the members of this name. -/
def valuesOf (members : List (Option String × Json)) (name : String) : List Json :=
  members.filterMap fun m => if m.1 = some name then some m.2 else none

end Json

end StackMachine
