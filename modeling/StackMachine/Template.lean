import StackMachine.Text.Quoted
import StackMachine.Value

/-!
# Templates

A template is text with placeholders: a percent sign, flags, a width and a verb. A doubled percent
sign is one in the output. The verbs are `d` (an integer), `x` and `X` (an integer in hexadecimal),
`s` (a string), `q` (a string as a literal) and `v` (anything, undefined included).

`pieces` splits a template from the left and never fails: a placeholder keeps the character in the
place of its verb, known or not. `render` walks the pieces and the arguments together and stops at
the leftmost placeholder that has no verb, no argument, an unknown verb or an argument of the wrong
kind. `arity` counts the arguments that a template takes without splitting it.
-/

namespace StackMachine.Template

/-! ## The pieces of a template -/

/-- A placeholder: `left` fills up behind the text and `zero` fills up a number with zeros. The verb
is `none` where the template ends first. The width has no bound here, and what becomes of a width of
`2 ^ 64` or more, which no 64-bit word can hold, is left open. -/
structure Field where
  left : Bool
  zero : Bool
  width : Nat
  verb : Option Char
  deriving DecidableEq

/-- A piece of a template. -/
inductive Piece where
  /-- A character that stands for itself. -/
  | literal (c : Char)
  /-- A doubled percent sign. -/
  | percent
  /-- A placeholder. -/
  | field (f : Field)
  deriving DecidableEq

/-- The flags are a minus sign and a zero, in any order and number. -/
def isFlag (c : Char) : Bool := c == '-' || c == '0'

/-- Reads a placeholder behind its percent sign, with the number of characters it takes in. -/
def readField (cs : List Char) : Field × Nat :=
  let flags := cs.takeWhile isFlag
  let digits := (cs.dropWhile isFlag).takeWhile Char.isDigit
  let verb := ((cs.dropWhile isFlag).dropWhile Char.isDigit).head?
  ({ left := flags.contains '-', zero := flags.contains '0'
     width := Nat.ofDigitChars 10 digits 0, verb },
    flags.length + digits.length + (if verb.isSome then 1 else 0))

/-- The pieces of the text past its first `used` characters. -/
def piecesAfter : Nat → List Char → List Piece
  | _, [] => []
  | used + 1, _ :: cs => piecesAfter used cs
  | 0, c :: cs =>
    if c = '%' then
      if cs.head? = some '%' then .percent :: piecesAfter 1 cs
      else .field (readField cs).1 :: piecesAfter (readField cs).2 cs
    else .literal c :: piecesAfter 0 cs

/-- The pieces of a template. -/
def pieces (cs : List Char) : List Piece := piecesAfter 0 cs

/-- The doubled percent signs, counted from the left. -/
def escapes : List Char → Nat
  | '%' :: '%' :: cs => escapes cs + 1
  | _ :: cs => escapes cs
  | [] => 0

/-- The number of arguments that a template takes: its percent signs less those in doubled ones. -/
def arity (cs : List Char) : Nat := cs.count '%' - 2 * escapes cs

/-- The pieces behind characters that were used. -/
theorem piecesAfter_eq_drop (used : Nat) (cs : List Char) :
    piecesAfter used cs = pieces (cs.drop used) := by
  induction cs generalizing used with
  | nil => cases used <;> simp [piecesAfter, pieces]
  | cons c cs ih =>
    cases used with
    | zero => rfl
    | succ used => simpa [piecesAfter] using ih used

/-! ## Verbs -/

/-- What a placeholder does with its argument. -/
inductive Verb where
  | decimal
  | hex
  | upperHex
  | string
  | quoted
  | any
  deriving DecidableEq

/-- The verb that a character names. -/
def Verb.ofChar? : Char → Option Verb
  | 'd' => some .decimal
  | 'x' => some .hex
  | 'X' => some .upperHex
  | 's' => some .string
  | 'q' => some .quoted
  | 'v' => some .any
  | _ => none

/-- What is wrong with a placeholder. -/
inductive Reason where
  /-- The template ends before the verb. -/
  | noVerb
  /-- No argument is left for the placeholder. -/
  | noArgument (verb : Char)
  /-- The character is no verb. -/
  | unknownVerb (verb : Char)
  deriving DecidableEq

/-- The wording of a reason. -/
def Reason.message : Reason → String
  | noVerb => "placeholder without verb"
  | noArgument verb => s!"missing argument for %{verb}"
  | unknownVerb verb => s!"unknown verb %{verb}"

/-- Why a template does not render. -/
inductive Fault where
  /-- A placeholder is wrong whatever its argument is. -/
  | malformed (reason : Reason)
  /-- The verb wants an argument of another kind. -/
  | mismatch (expected found : Kind)
  deriving DecidableEq

/-- The verb writes numbers. -/
def Verb.isNumeric : Verb → Bool
  | decimal | hex | upperHex => true
  | string | quoted | any => false

/-- The argument as an integer. -/
def asInt : Slot → Except Fault Int64
  | some (.int n) => .ok n
  | slot => .error (.mismatch .int (Slot.kind slot))

/-- The argument as a string. -/
def asString : Slot → Except Fault String
  | some (.str s) => .ok s
  | slot => .error (.mismatch .string (Slot.kind slot))

/-- The hexadecimal form of a word, negative ones by their two's complement. -/
def hexWord (n : Int64) : List Char := Numeral.hexadecimal n.toUInt64.toNat

/-- The text of an argument, before it is padded. -/
def Verb.convert (verb : Verb) (slot : Slot) : Except Fault (List Char) :=
  match verb with
  | decimal => (asInt slot).map fun n => Numeral.decimal n.toInt
  | hex => (asInt slot).map hexWord
  | upperHex => (asInt slot).map fun n => (hexWord n).map Char.toUpper
  | string => (asString slot).map String.toList
  | quoted => (asString slot).map fun s => Quoted.quoteChars s.toList
  | any => .ok (Slot.text slot).toList

/-! ## Rendering -/

/-- Puts zeros between the sign of a number and its digits. -/
def zeroFill (fill : Nat) (text : List Char) : List Char :=
  match text with
  | '-' :: digits => '-' :: (List.replicate fill '0' ++ digits)
  | digits => List.replicate fill '0' ++ digits

/-- The text in a field of its width: a text that is too long stays as it is. -/
def pad (f : Field) (numeric : Bool) (text : List Char) : List Char :=
  let fill := f.width - text.length
  if f.left then text ++ List.replicate fill ' '
  else if f.zero && numeric then zeroFill fill text
  else List.replicate fill ' ' ++ text

/-- The output of the pieces, each placeholder taking the next argument. -/
def renderPieces : List Piece → List Slot → Except Fault (List Char)
  | [], _ => .ok []
  | .literal c :: ps, args => (renderPieces ps args).map (c :: ·)
  | .percent :: ps, args => (renderPieces ps args).map ('%' :: ·)
  | .field f :: ps, args =>
    match f.verb, args with
    | none, _ => .error (.malformed .noVerb)
    | some c, [] => .error (.malformed (.noArgument c))
    | some c, arg :: args =>
      match Verb.ofChar? c with
      | none => .error (.malformed (.unknownVerb c))
      | some verb =>
        match verb.convert arg with
        | .error fault => .error fault
        | .ok text => (renderPieces ps args).map (pad f verb.isNumeric text ++ ·)

/-- The output of a template. -/
def render (template : String) (args : List Slot) : Except Fault String :=
  (renderPieces (pieces template.toList) args).map String.ofList

example : (render "%s-%05d%%" [some (.str "a"), some (.int (-42))]).toOption = some "a--0042%" := by
  decide
example : (render "[%-4x]" [some (.int 255)]).toOption = some "[ff  ]" := by decide
example : render "%d%z" [none] = .error (.mismatch .int .undefined) := by rfl
example : arity "%%%d %5%".toList = 3 := by decide

end StackMachine.Template
