import StackMachine.Assembly.Operand
import StackMachine.Parameter

/-!
# Directives

A comment of the header declares a parameter if it reads `@param NAME ADDRESS KIND LITERAL`, with
blanks between the words. A comment is no directive unless all of it up to the kind is there; from
there on a wrong address or a missing literal is a fault. What follows the literal is ignored.
-/

namespace StackMachine.Assembly

/-- The text behind a run of one or more blanks. -/
def skipBlanks1 (cs : List Char) : Option (List Char) :=
  match cs with
  | c :: _ => if Text.isBlank c then some (Text.skipBlanks cs) else none
  | [] => none

/-- A directive up to its kind; `rest` is the text where the literal should stand. -/
structure Directive where
  name : List Char
  address : List Char
  kind : Kind
  rest : List Char

/-- The kind that a word names. -/
def kindOfWord? (word : List Char) : Option Kind :=
  if word = "int".toList then some .int
  else if word = "str".toList ∨ word = "string".toList then some .string
  else none

/-- Reads a directive up to its kind, which the end of the text or a blank follows. -/
def readDirective? (comment : List Char) : Option Directive := do
  let cs ← "@param".toList.isPrefixOf? (Text.skipBlanks comment)
  let cs ← skipBlanks1 cs
  let name := cs.takeWhile Char.isAlphanum
  guard (name ≠ [])
  let cs ← skipBlanks1 (cs.dropWhile Char.isAlphanum)
  let (address, cs) ← Numeral.scan cs
  let cs ← skipBlanks1 cs
  let word := cs.takeWhile (!Text.isBlank ·)
  let kind ← kindOfWord? word
  return { name, address, kind, rest := cs.dropWhile (!Text.isBlank ·) }

/-- Reads the literal of a directive's kind. -/
def Directive.readLiteral (d : Directive) : Except LineFault (Option Value) :=
  match d.kind with
  | .int => (readInt d.rest).map (·.map fun r => .int r.1)
  | .string => (readString d.rest).map (·.map fun r => .str r.1)
  | .undefined => .ok none

/-- The parameter that a directive declares. The address is checked before the literal. -/
def Directive.parameter (d : Directive) : Except LineFault Parameter :=
  match Numeral.word? (Numeral.denote d.address) with
  | none => .error (.addressRange d.address)
  | some address =>
    match d.readLiteral with
    | .error fault => .error fault
    | .ok none => .error (.literalExpected (String.ofList d.name) d.kind)
    | .ok (some value) => .ok { name := String.ofList d.name, address, value }

/-- The parameter that a comment declares, if it is a directive. -/
def readParameter (comment : List Char) : Except LineFault (Option Parameter) :=
  match readDirective? comment with
  | none => .ok none
  | some d => d.parameter.map some

end StackMachine.Assembly
