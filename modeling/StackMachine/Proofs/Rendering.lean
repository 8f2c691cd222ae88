import Mathlib.Algebra.Group.Int.Defs
import Mathlib.Data.List.Forall2
import StackMachine.Proofs.Template

/-!
# The language of templates

A template is a row of tokens: characters that stand for themselves, doubled percent signs and
placeholders. `written` says how tokens are written down, and no two rows of them are written alike
(`written_injective`): the zeros in front of a width are flags, so a width does not begin with one,
and the character behind it decides where a placeholder ends.

Rendering follows the tokens. A template that is written as tokens, each of whose placeholders
accepts its argument, renders to the tokens filled in (`renderPieces_written`). Every other one is
such a template up to a placeholder that is wrong, which decides how rendering fails
(`written_or_wrong`, `Wrong.renderPieces`).
-/

namespace StackMachine.Template

open Text

/-! ## Verbs -/

namespace Verb

/-- The character that names a verb. -/
def char : Verb → Char
  | decimal => 'd'
  | hex => 'x'
  | upperHex => 'X'
  | string => 's'
  | quoted => 'q'
  | any => 'v'

/-- The kind that a verb wants its argument to be of; `none` is any kind. -/
def wants : Verb → Option Kind
  | decimal | hex | upperHex => some .int
  | string | quoted => some .string
  | any => none

/-- The verb takes an argument of this kind. -/
def Accepts (verb : Verb) (kind : Kind) : Prop := ∀ wanted ∈ verb.wants, kind = wanted

/-- What a verb makes of an argument that it accepts. -/
def text : Verb → Slot → List Char
  | decimal, some (.int n) => Numeral.decimal n.toInt
  | hex, some (.int n) => Nat.toDigits 16 (n.toInt % 2 ^ 64).toNat
  | upperHex, some (.int n) => (Nat.toDigits 16 (n.toInt % 2 ^ 64).toNat).map Char.toUpper
  | string, some (.str s) => s.toList
  | quoted, some (.str s) => Quoted.quoteChars s.toList
  | any, slot => (Slot.text slot).toList
  | _, _ => []

/-- A character is read as the verb that it is the character of. -/
theorem ofChar?_eq_some_iff {c : Char} {verb : Verb} : ofChar? c = some verb ↔ c = verb.char := by
  constructor
  · intro h
    unfold ofChar? at h
    split at h <;> cases h <;> rfl
  · rintro rfl
    cases verb <;> rfl

/-- Verbs have different characters. -/
theorem char_injective {verb verb' : Verb} (h : verb.char = verb'.char) : verb = verb' :=
  Option.some.inj ((ofChar?_eq_some_iff.mpr rfl).symm.trans (ofChar?_eq_some_iff.mpr h))

/-- No verb is a percent sign. -/
theorem char_ne_percent (verb : Verb) : verb.char ≠ '%' := by cases verb <;> decide

/-- No verb is a flag. -/
theorem isFlag_char (verb : Verb) : isFlag verb.char = false := by cases verb <;> decide

/-- No verb is a digit. -/
theorem isDigit_char (verb : Verb) : verb.char.isDigit = false := by cases verb <;> decide

/-- The verbs that can be filled with zeros are those that want an integer. -/
theorem isNumeric_iff {verb : Verb} : verb.isNumeric = true ↔ verb.wants = some .int := by
  cases verb <;> decide

/-- The digits of a word are those of the natural number that its bits are. -/
theorem hexWord_eq (n : Int64) : hexWord n = Nat.toDigits 16 (n.toInt % 2 ^ 64).toNat := by
  have hbits : (n.toInt % 2 ^ 64).toNat = n.toUInt64.toNat := by
    show (n.toBitVec.toInt % (2 ^ 64 : Nat)).toNat = n.toBitVec.toNat
    rw [BitVec.toInt_eq_toNat_bmod, Int.bmod_emod, ← Int.natCast_emod, Int.toNat_natCast,
      Nat.mod_eq_of_lt n.toBitVec.isLt]
  rw [hbits]
  rfl

/-- An argument of the wanted kind is converted. -/
theorem convert_of_accepts {verb : Verb} {arg : Slot} (h : verb.Accepts (Slot.kind arg)) :
    verb.convert arg = .ok (verb.text arg) := by
  cases verb with
  | decimal | hex | upperHex =>
    match arg, h _ rfl with
    | some (.int n), _ => simp [convert, asInt, Except.map, text, hexWord_eq]
  | string | quoted =>
    match arg, h _ rfl with
    | some (.str s), _ => rfl
  | any => rfl

/-- An argument of another kind is refused. -/
theorem convert_of_ne {verb : Verb} {arg : Slot} {wanted : Kind} (hwants : verb.wants = some wanted)
    (hkind : Slot.kind arg ≠ wanted) :
    verb.convert arg = .error (.mismatch wanted (Slot.kind arg)) := by
  cases verb with
  | decimal | hex | upperHex =>
    cases hwants
    match arg with
    | some (.int n) => exact absurd rfl hkind
    | some (.str s) => rfl
    | none => rfl
  | string | quoted =>
    cases hwants
    match arg with
    | some (.int n) => rfl
    | some (.str s) => exact absurd rfl hkind
    | none => rfl
  | any => cases hwants

end Verb

/-! ## Placeholders -/

/-- The flags are the minus sign and zero. -/
theorem isFlag_iff {c : Char} : isFlag c = true ↔ c = '-' ∨ c = '0' := by
  simp [isFlag]

/-- The flags and the width of a placeholder, as they are written. -/
structure Spec where
  flags : List Char
  digits : List Char
  isFlag_flags : ∀ c ∈ flags, c = '-' ∨ c = '0'
  isDigit_digits : ∀ c ∈ digits, c.isDigit = true
  head?_digits : digits.head? ≠ some '0'

namespace Spec

/-- How flags and width are written. -/
def chars (s : Spec) : List Char := s.flags ++ s.digits

/-- The number that the width denotes; no width is zero. -/
def width (s : Spec) : Nat := Nat.ofDigitChars 10 s.digits 0

/-- The text behind flags and width continues neither of them. -/
def Ends (s : Spec) (rest : List Char) : Prop :=
  Stops Char.isDigit rest ∧ (s.digits = [] → Stops isFlag rest)

/-- There is no percent sign in front of a verb. -/
theorem percent_not_mem_chars (s : Spec) : '%' ∉ s.chars := by
  intro h
  obtain h | h := List.mem_append.mp h
  · exact absurd (s.isFlag_flags _ h) (by decide)
  · exact absurd (s.isDigit_digits _ h) (by decide)

/-- A digit other than zero is no flag, and no other character is one that ends a width. -/
theorem stops_isFlag {s : Spec} {rest : List Char} (h : s.Ends rest) :
    Stops isFlag (s.digits ++ rest) := by
  cases hdigits : s.digits with
  | nil => exact h.2 hdigits
  | cons d ds =>
    have hdigit : d.isDigit = true := s.isDigit_digits d (by simp [hdigits])
    have hzero : d ≠ '0' := fun hd => s.head?_digits (by simp [hdigits, hd])
    have hminus : d ≠ '-' := by
      rintro rfl
      cases hdigit
    simp [isFlag, hzero, hminus]

/-- Flags and width are as long as they can be. -/
theorem takeWhile_dropWhile {s : Spec} {rest : List Char} (h : s.Ends rest) :
    (s.chars ++ rest).takeWhile isFlag = s.flags ∧
    (s.chars ++ rest).dropWhile isFlag = s.digits ++ rest ∧
    (s.digits ++ rest).takeWhile Char.isDigit = s.digits ∧
    (s.digits ++ rest).dropWhile Char.isDigit = rest := by
  rw [chars, List.append_assoc]
  obtain ⟨hflags, hbehind⟩ := takeWhile_dropWhile_eq_iff.mpr
    ⟨rfl, fun c hc => isFlag_iff.mpr (s.isFlag_flags c hc), stops_isFlag h⟩
  obtain ⟨hdigits, hrest⟩ := takeWhile_dropWhile_eq_iff.mpr ⟨rfl, s.isDigit_digits, h.1⟩
  exact ⟨hflags, hbehind, hdigits, hrest⟩

/-- Every text begins with flags and a width, which may be empty. -/
theorem exists_chars_append (cs : List Char) : ∃ (s : Spec) (rest : List Char),
    cs = s.chars ++ rest ∧ s.Ends rest := by
  obtain ⟨hcs, hflags, hbehind⟩ :=
    takeWhile_dropWhile_eq_iff.mp ⟨rfl, (rfl : cs.dropWhile isFlag = cs.dropWhile isFlag)⟩
  generalize cs.takeWhile isFlag = flags at hcs hflags
  generalize cs.dropWhile isFlag = behind at hcs hbehind
  obtain ⟨hsplit, hdigits, hrest⟩ :=
    takeWhile_dropWhile_eq_iff.mp ⟨rfl, (rfl : behind.dropWhile Char.isDigit = _)⟩
  generalize behind.takeWhile Char.isDigit = digits at hsplit hdigits
  generalize behind.dropWhile Char.isDigit = rest at hsplit hrest
  subst hsplit
  have hzero : digits.head? ≠ some '0' := fun hzero => by
    obtain ⟨ds, rfl⟩ := List.head?_eq_some_iff.mp hzero
    cases (stops_cons ..).mp hbehind
  refine ⟨⟨flags, digits, fun c hc => isFlag_iff.mp (hflags c hc), hdigits, hzero⟩, rest,
    hcs.trans (List.append_assoc ..).symm, hrest, fun hnone => ?_⟩
  have hnone : digits = [] := hnone
  rwa [hnone, List.nil_append] at hbehind

/-- Flags and width are told from each other and from what follows. -/
theorem chars_append_inj {s s' : Spec} {rest rest' : List Char} (h : s.Ends rest)
    (h' : s'.Ends rest') (heq : s.chars ++ rest = s'.chars ++ rest') : s = s' ∧ rest = rest' := by
  obtain ⟨hflags, hbehind, hdigits, hrest⟩ := takeWhile_dropWhile h
  obtain ⟨hflags', hbehind', hdigits', hrest'⟩ := takeWhile_dropWhile h'
  rw [heq, hflags'] at hflags
  rw [heq, hbehind'] at hbehind
  rw [← hbehind, hdigits'] at hdigits
  rw [← hbehind, hrest'] at hrest
  obtain ⟨flags, digits, _, _, _⟩ := s
  obtain ⟨flags', digits', _, _, _⟩ := s'
  cases hflags
  cases hdigits
  exact ⟨rfl, hrest.symm⟩

/-- What stands in front of a verb is read exactly. -/
theorem readField_append {s : Spec} {rest : List Char} (h : s.Ends rest) :
    readField (s.chars ++ rest) =
      ({ left := s.flags.contains '-', zero := s.flags.contains '0', width := s.width
         verb := rest.head? }, s.chars.length + (if rest.head?.isSome then 1 else 0)) := by
  obtain ⟨hflags, hbehind, hdigits, hrest⟩ := takeWhile_dropWhile h
  have hlength : s.chars.length = s.flags.length + s.digits.length := List.length_append
  simp only [readField, hflags, hbehind, hdigits, hrest, hlength, width]

end Spec

/-- A placeholder, without its percent sign. -/
structure Placeholder extends Spec where
  verb : Verb

namespace Placeholder

/-- How a placeholder is written behind its percent sign. -/
def chars (p : Placeholder) : List Char := p.toSpec.chars ++ [p.verb.char]

/-- An argument in its placeholder: text is filled up with spaces to the width, on the right if
there is a minus flag and on the left if there is none; a number with a zero flag is filled up with
zeros behind its sign. -/
def field (p : Placeholder) (arg : Slot) : List Char :=
  let text := p.verb.text arg
  if '-' ∈ p.flags then text.rightpad p.width ' '
  else if '0' ∈ p.flags ∧ p.verb.wants = some .int then
    let (sign, digits) := Numeral.splitSign text
    sign ++ digits.leftpad (p.width - sign.length) '0'
  else text.leftpad p.width ' '

/-- A verb continues neither flags nor a width. -/
theorem ends_verb (p : Placeholder) (rest : List Char) : p.toSpec.Ends (p.verb.char :: rest) :=
  ⟨(stops_cons ..).mpr p.verb.isDigit_char, fun _ => (stops_cons ..).mpr p.verb.isFlag_char⟩

/-- A placeholder is its flags and width, and its verb. -/
theorem chars_append (p : Placeholder) (rest : List Char) :
    p.chars ++ rest = p.toSpec.chars ++ p.verb.char :: rest :=
  List.append_assoc ..

/-- Behind its percent sign a placeholder does not go on with another one. -/
theorem head?_chars_append (p : Placeholder) (rest : List Char) :
    (p.chars ++ rest).head? ≠ some '%' := by
  intro h
  have hmem : '%' ∈ p.chars := by
    obtain ⟨c, cs, hne⟩ := List.exists_cons_of_ne_nil (l := p.chars) (by simp [chars])
    rw [hne, List.cons_append, List.head?_cons, Option.some.injEq] at h
    rw [hne, h]
    exact List.mem_cons_self
  obtain hspec | hverb := List.mem_append.mp hmem
  · exact p.toSpec.percent_not_mem_chars hspec
  · exact p.verb.char_ne_percent (List.mem_singleton.mp hverb).symm

/-- A text begins with one placeholder only. -/
theorem chars_append_inj {p p' : Placeholder} {rest rest' : List Char}
    (h : p.chars ++ rest = p'.chars ++ rest') : p = p' ∧ rest = rest' := by
  rw [chars_append, chars_append] at h
  obtain ⟨hspec, htail⟩ := Spec.chars_append_inj (p.ends_verb rest) (p'.ends_verb rest') h
  obtain ⟨hverb, hrest⟩ := List.cons.inj htail
  obtain ⟨s, verb⟩ := p
  obtain ⟨s', verb'⟩ := p'
  cases hspec
  cases Verb.char_injective hverb
  exact ⟨rfl, hrest⟩

/-- Zeros go behind the sign and count it in. -/
theorem zeroFill_eq (width : Nat) (text : List Char) :
    zeroFill (width - text.length) text = (Numeral.splitSign text).1 ++
      (Numeral.splitSign text).2.leftpad (width - (Numeral.splitSign text).1.length) '0' := by
  unfold zeroFill
  split
  · rename_i digits
    show '-' :: (List.replicate (width - (digits.length + 1)) '0' ++ digits) =
      '-' :: (List.replicate (width - 1 - digits.length) '0' ++ digits)
    rw [Nat.sub_sub, Nat.add_comm]
  · rename_i hsign
    rw [Numeral.splitSign]
    · rfl
    · exact hsign

/-- An argument is padded as its placeholder says. -/
theorem pad_eq_field (p : Placeholder) (arg : Slot) (verb : Option Char) :
    pad { left := p.flags.contains '-', zero := p.flags.contains '0', width := p.width, verb }
      p.verb.isNumeric (p.verb.text arg) = p.field arg := by
  unfold pad field
  simp only [List.contains_iff_mem, Bool.and_eq_true, Verb.isNumeric_iff, zeroFill_eq]
  rfl

end Placeholder

/-! ## Tokens -/

/-- What a template is made of. -/
inductive Token where
  /-- A character that stands for itself. -/
  | literal (c : Char) (h : c ≠ '%')
  /-- A doubled percent sign. -/
  | escape
  | placeholder (p : Placeholder)

/-- How a token is written. -/
def Token.chars : Token → List Char
  | literal c _ => [c]
  | escape => ['%', '%']
  | placeholder p => '%' :: p.chars

/-- How tokens are written. -/
def written (ts : List Token) : List Char := ts.flatMap Token.chars

/-- The placeholders among tokens. -/
def placeholders : List Token → List Placeholder
  | [] => []
  | .placeholder p :: ts => p :: placeholders ts
  | _ :: ts => placeholders ts

/-- The arguments are as many as the placeholders, and each is of a kind that its placeholder
accepts. -/
def Fits (ts : List Token) (args : List Slot) : Prop :=
  List.Forall₂ (fun p arg => p.verb.Accepts (Slot.kind arg)) (placeholders ts) args

/-- Tokens with arguments in the place of their placeholders. -/
def fill : List Token → List Slot → List Char
  | .literal c _ :: ts, args => c :: fill ts args
  | .escape :: ts, args => '%' :: fill ts args
  | .placeholder p :: ts, arg :: args => p.field arg ++ fill ts args
  | .placeholder _ :: _, [] => []
  | [], _ => []

/-- A template that begins with a character. -/
theorem written_literal (c : Char) (h : c ≠ '%') (ts : List Token) :
    written (.literal c h :: ts) = c :: written ts := rfl

/-- A template that begins with an escaped percent sign. -/
theorem written_escape (ts : List Token) : written (.escape :: ts) = '%' :: '%' :: written ts := rfl

/-- A template that begins with a placeholder. -/
theorem written_placeholder (p : Placeholder) (ts : List Token) :
    written (.placeholder p :: ts) = '%' :: (p.chars ++ written ts) := rfl

/-- A token is told from what follows. -/
theorem Token.chars_append_inj {t t' : Token} {rest rest' : List Char}
    (h : t.chars ++ rest = t'.chars ++ rest') : t = t' ∧ rest = rest' := by
  cases t with
  | literal c hc =>
    cases t' with
    | literal c' hc' =>
      obtain ⟨rfl, hrest⟩ := List.cons.inj h
      exact ⟨rfl, hrest⟩
    | escape | placeholder => exact absurd (List.cons.inj h).1 hc
  | escape =>
    cases t' with
    | literal c' hc' => exact absurd (List.cons.inj h).1.symm hc'
    | escape => exact ⟨rfl, (List.cons.inj (List.cons.inj h).2).2⟩
    | placeholder p' =>
      have hhead : '%' :: rest = p'.chars ++ rest' := (List.cons.inj h).2
      exact absurd (hhead ▸ List.head?_cons) (p'.head?_chars_append rest')
  | placeholder p =>
    cases t' with
    | literal c' hc' => exact absurd (List.cons.inj h).1.symm hc'
    | escape =>
      have hhead : p.chars ++ rest = '%' :: rest' := (List.cons.inj h).2
      exact absurd (hhead ▸ List.head?_cons) (p.head?_chars_append rest)
    | placeholder p' =>
      obtain ⟨rfl, hrest⟩ := Placeholder.chars_append_inj (List.cons.inj h).2
      exact ⟨rfl, hrest⟩

/-- No token is empty. -/
theorem Token.chars_ne_nil (t : Token) : t.chars ≠ [] := by cases t <;> exact List.cons_ne_nil _ _

/-- A template is written as tokens in one way only. -/
theorem written_injective {ts ts' : List Token} (h : written ts = written ts') : ts = ts' := by
  induction ts generalizing ts' with
  | nil =>
    cases ts' with
    | nil => rfl
    | cons t' ts' => exact absurd (List.append_eq_nil_iff.mp h.symm).1 t'.chars_ne_nil
  | cons t ts ih =>
    cases ts' with
    | nil => exact absurd (List.append_eq_nil_iff.mp h).1 t.chars_ne_nil
    | cons t' ts' =>
      obtain ⟨rfl, hrest⟩ := Token.chars_append_inj h
      rw [ih hrest]

/-! ## Rendering -/

/-- A placeholder is read exactly. -/
theorem readField_placeholder (p : Placeholder) (rest : List Char) :
    (readField (p.chars ++ rest)).1 =
      { left := p.flags.contains '-', zero := p.flags.contains '0', width := p.width
        verb := some p.verb.char } ∧
    (p.chars ++ rest).drop (readField (p.chars ++ rest)).2 = rest := by
  rw [Placeholder.chars_append, Spec.readField_append (p.ends_verb rest)]
  refine ⟨rfl, ?_⟩
  show (p.toSpec.chars ++ p.verb.char :: rest).drop (p.toSpec.chars.length + 1) = rest
  rw [List.drop_length_add_append]
  rfl

/-- A placeholder and the argument that it accepts. -/
theorem renderPieces_placeholder {p : Placeholder} {arg : Slot} (h : p.verb.Accepts (Slot.kind arg))
    (rest : List Char) (args : List Slot) :
    renderPieces (pieces ('%' :: (p.chars ++ rest))) (arg :: args) =
      (renderPieces (pieces rest) args).map (p.field arg ++ ·) := by
  obtain ⟨hfield, hrest⟩ := readField_placeholder p rest
  rw [pieces_percent (p.head?_chars_append rest), hfield, hrest,
    renderPieces_field rfl (Verb.ofChar?_eq_some_iff.mpr rfl), Verb.convert_of_accepts h,
    Except.bind, p.pad_eq_field arg]

/-- Tokens that fit their arguments are filled in, and what follows them is rendered with the
arguments that are left. -/
theorem renderPieces_written {ts : List Token} {used : List Slot} (h : Fits ts used)
    (rest : List Char) (left : List Slot) :
    renderPieces (pieces (written ts ++ rest)) (used ++ left) =
      (renderPieces (pieces rest) left).map (fill ts used ++ ·) := by
  induction ts generalizing used with
  | nil =>
    cases h
    show renderPieces (pieces rest) left = _
    cases renderPieces (pieces rest) left <;> rfl
  | cons t ts ih =>
    cases t with
    | literal c hc =>
      have hnext : Fits ts used := h
      rw [written_literal, List.cons_append, pieces_cons_of_ne hc, renderPieces, ih hnext, map_map]
      rfl
    | escape =>
      have hnext : Fits ts used := h
      rw [written_escape, List.cons_append, List.cons_append, pieces_escape, renderPieces, ih hnext,
        map_map]
      rfl
    | placeholder p =>
      obtain _ | ⟨haccepts, hnext⟩ := h
      rename_i arg used
      rw [written_placeholder, List.cons_append, List.append_assoc, List.cons_append,
        renderPieces_placeholder haccepts, ih hnext, map_map]
      congr 1
      funext out
      exact (List.append_assoc ..).symm

/-- What is wrong with the placeholder whose text stands behind a percent sign, for the arguments
that are left: the template ends before the verb, there is no argument, the character in the place
of the verb names none, or the argument is of another kind than the verb wants. -/
inductive Wrong (template : String) : List Char → List Slot → StackMachine.Fault → Prop
  | noVerb (s : Spec) (args : List Slot) :
    Wrong template s.chars args (.invalidFormat template .noVerb)
  | noArgument {s : Spec} {c : Char} {rest : List Char} :
    s.Ends (c :: rest) →
      Wrong template (s.chars ++ c :: rest) [] (.invalidFormat template (.noArgument c))
  | unknownVerb {s : Spec} {c : Char} {rest : List Char} (arg : Slot) (args : List Slot) :
    s.Ends (c :: rest) → (∀ verb : Verb, c ≠ verb.char) →
      Wrong template (s.chars ++ c :: rest) (arg :: args)
        (.invalidFormat template (.unknownVerb c))
  | wrongKind {p : Placeholder} {wanted : Kind} {arg : Slot} (rest : List Char) (args : List Slot) :
    p.verb.wants = some wanted → Slot.kind arg ≠ wanted →
      Wrong template (p.chars ++ rest) (arg :: args) (.typeMismatch wanted (Slot.kind arg))

/-- Rendering stops at a wrong placeholder. -/
theorem Wrong.renderPieces {template : String} {rest : List Char} {args : List Slot}
    {fault : StackMachine.Fault} (h : Wrong template rest args fault)
    (hrest : rest.head? ≠ some '%') :
    ∃ refusal, renderPieces (pieces ('%' :: rest)) args = .error refusal ∧
      StackMachine.Fault.ofTemplate template refusal = fault := by
  rw [pieces_percent hrest]
  cases h with
  | noVerb s args =>
    have hends : s.Ends [] := ⟨stops_nil _, fun _ => stops_nil _⟩
    rw [← s.chars.append_nil, Spec.readField_append hends]
    exact ⟨_, rfl, rfl⟩
  | noArgument hends =>
    rw [Spec.readField_append hends]
    exact ⟨_, rfl, rfl⟩
  | @unknownVerb s c rest arg args hends hverb =>
    have hunknown : Verb.ofChar? c = none :=
      Option.eq_none_iff_forall_ne_some.mpr fun verb h => hverb verb (Verb.ofChar?_eq_some_iff.mp h)
    rw [Spec.readField_append hends]
    refine ⟨.malformed (.unknownVerb c), ?_, rfl⟩
    simp only [Template.renderPieces, List.head?_cons, hunknown]
  | wrongKind rest args hwants hkind =>
    obtain ⟨hfield, -⟩ := readField_placeholder _ rest
    rw [hfield, renderPieces_field rfl (Verb.ofChar?_eq_some_iff.mpr rfl),
      Verb.convert_of_ne hwants hkind]
    exact ⟨_, rfl, rfl⟩

/-- A placeholder is one that accepts the next argument, or is wrong. -/
theorem placeholder_or_wrong (template : String) (cs : List Char) (args : List Slot) :
    (∃ (p : Placeholder) (rest : List Char) (arg : Slot) (left : List Slot),
      cs = p.chars ++ rest ∧ args = arg :: left ∧ p.verb.Accepts (Slot.kind arg)) ∨
    ∃ fault, Wrong template cs args fault := by
  obtain ⟨s, behind, rfl, hends⟩ := Spec.exists_chars_append cs
  cases behind with
  | nil =>
    rw [List.append_nil]
    exact .inr ⟨_, .noVerb s args⟩
  | cons c rest =>
    cases args with
    | nil => exact .inr ⟨_, .noArgument hends⟩
    | cons arg left =>
      cases hverb : Verb.ofChar? c with
      | none =>
        refine .inr ⟨_, .unknownVerb arg left hends ?_⟩
        rintro verb rfl
        rw [Verb.ofChar?_eq_some_iff.mpr rfl] at hverb
        cases hverb
      | some verb =>
        obtain rfl := Verb.ofChar?_eq_some_iff.mp hverb
        have hchars : s.chars ++ verb.char :: rest = (⟨s, verb⟩ : Placeholder).chars ++ rest :=
          (Placeholder.chars_append ⟨s, verb⟩ rest).symm
        cases hwants : verb.wants with
        | none =>
          refine .inl ⟨⟨s, verb⟩, rest, arg, left, hchars, rfl, fun wanted hwanted => ?_⟩
          cases hwants.symm.trans hwanted
        | some kind =>
          by_cases hkind : Slot.kind arg = kind
          · refine .inl ⟨⟨s, verb⟩, rest, arg, left, hchars, rfl, fun wanted hwanted => ?_⟩
            cases hwants.symm.trans hwanted
            exact hkind
          · rw [hchars]
            exact .inr ⟨_, .wrongKind (p := ⟨s, verb⟩) rest left hwants hkind⟩

/-- Every template is written as tokens that fit the first arguments, to its end or up to a
placeholder that is wrong for the arguments that are left. -/
theorem written_or_wrong (template : String) (cs : List Char) (args : List Slot) :
    (∃ ts used left, cs = written ts ∧ args = used ++ left ∧ Fits ts used) ∨
    ∃ ts used left rest fault, cs = written ts ++ '%' :: rest ∧ rest.head? ≠ some '%' ∧
      args = used ++ left ∧ Fits ts used ∧ Wrong template rest left fault := by
  induction cs using pieces_induction generalizing args with
  | nil => exact .inl ⟨[], [], args, rfl, rfl, .nil⟩
  | literal c cs hc ih =>
    obtain ⟨ts, used, left, rfl, rfl, hfits⟩ |
      ⟨ts, used, left, rest, fault, rfl, hrest, rfl, hfits, hwrong⟩ := ih args
    · exact .inl ⟨.literal c hc :: ts, used, left, rfl, rfl, hfits⟩
    · exact .inr ⟨.literal c hc :: ts, used, left, rest, fault, rfl, hrest, rfl, hfits, hwrong⟩
  | escape cs ih =>
    obtain ⟨ts, used, left, rfl, rfl, hfits⟩ |
      ⟨ts, used, left, rest, fault, rfl, hrest, rfl, hfits, hwrong⟩ := ih args
    · exact .inl ⟨.escape :: ts, used, left, rfl, rfl, hfits⟩
    · exact .inr ⟨.escape :: ts, used, left, rest, fault, rfl, hrest, rfl, hfits, hwrong⟩
  | field cs hhead ih =>
    obtain ⟨p, rest, arg, args, rfl, rfl, haccepts⟩ | ⟨fault, hwrong⟩ :=
      placeholder_or_wrong template cs args
    · rw [(readField_placeholder p rest).2] at ih
      obtain ⟨ts, used, left, rfl, rfl, hfits⟩ |
        ⟨ts, used, left, rest, fault, rfl, hrest, rfl, hfits, hwrong⟩ := ih args
      · exact .inl ⟨.placeholder p :: ts, arg :: used, left, rfl, rfl, .cons haccepts hfits⟩
      · refine .inr ⟨.placeholder p :: ts, arg :: used, left, rest, fault, ?_, hrest, rfl,
          .cons haccepts hfits, hwrong⟩
        rw [written_placeholder, List.cons_append, List.append_assoc]
    · exact .inr ⟨[], [], args, cs, fault, rfl, hhead, rfl, .nil, hwrong⟩

/-- Tokens that fit their arguments render to the tokens filled in. -/
theorem render_of_written {template : String} {ts : List Token} {used : List Slot}
    (hcs : template.toList = written ts) (hfits : Fits ts used) (left : List Slot) :
    render template (used ++ left) = .ok (String.ofList (fill ts used)) := by
  have hrender := renderPieces_written hfits [] left
  rw [List.append_nil, ← hcs] at hrender
  have hfilled : renderPieces (pieces template.toList) (used ++ left) = .ok (fill ts used) :=
    hrender.trans (congrArg Except.ok (List.append_nil _))
  rw [render, hfilled, Except.map]

/-- Tokens that fit their arguments lead up to a wrong placeholder, which decides. -/
theorem render_of_wrong {template : String} {ts : List Token} {used left : List Slot}
    {rest : List Char}
    {fault : StackMachine.Fault} (hcs : template.toList = written ts ++ '%' :: rest)
    (hrest : rest.head? ≠ some '%') (hfits : Fits ts used)
    (hwrong : Wrong template rest left fault) :
    ∃ refusal, render template (used ++ left) = .error refusal ∧
      StackMachine.Fault.ofTemplate template refusal = fault := by
  obtain ⟨refusal, hrefusal, hfault⟩ := hwrong.renderPieces hrest
  refine ⟨refusal, ?_, hfault⟩
  rw [render, hcs, renderPieces_written hfits, hrefusal]
  rfl

/-- Templates are a language. A template is written as tokens in one way at most. It renders exactly
if it is written as tokens and its first arguments fit them, and then to the tokens filled with
these. It fails exactly if it is written as tokens that fit their arguments only up to a percent
sign that is not doubled, behind which the placeholder is wrong; so the leftmost wrong one decides
the fault. -/
theorem render_iff_written (template : String) (args : List Slot) :
    let result := (render template args).mapError (StackMachine.Fault.ofTemplate template)
    (∀ ts ts', template.toList = written ts → template.toList = written ts' → ts = ts') ∧
    (∀ out, result = .ok out ↔
      ∃ ts used left, template.toList = written ts ∧ args = used ++ left ∧ Fits ts used ∧
        out = String.ofList (fill ts used)) ∧
    ∀ fault, result = .error fault ↔
      ∃ ts used left rest, template.toList = written ts ++ '%' :: rest ∧ rest.head? ≠ some '%' ∧
        args = used ++ left ∧ Fits ts used ∧ Wrong template rest left fault := by
  intro result
  have hright {ts used left} (hcs : template.toList = written ts) (hargs : args = used ++ left)
      (hfits : Fits ts used) : result = .ok (String.ofList (fill ts used)) :=
    mapError_eq_ok_iff.mpr (hargs ▸ render_of_written hcs hfits left)
  have hwrong {ts used left rest fault} (hcs : template.toList = written ts ++ '%' :: rest)
      (hrest : rest.head? ≠ some '%') (hargs : args = used ++ left) (hfits : Fits ts used)
      (hwrong : Wrong template rest left fault) : result = .error fault :=
    mapError_eq_error_iff.mpr (hargs ▸ render_of_wrong hcs hrest hfits hwrong)
  refine ⟨fun ts ts' h h' => written_injective (h.symm.trans h'), fun out => ⟨fun hok => ?_, ?_⟩,
    fun fault => ⟨fun herror => ?_, ?_⟩⟩
  · obtain ⟨ts, used, left, hcs, hargs, hfits⟩ |
      ⟨ts, used, left, rest, fault, hcs, hrest, hargs, hfits, hw⟩ :=
        written_or_wrong template template.toList args
    · cases hok.symm.trans (hright hcs hargs hfits)
      exact ⟨ts, used, left, hcs, hargs, hfits, rfl⟩
    · cases hok.symm.trans (hwrong hcs hrest hargs hfits hw)
  · rintro ⟨ts, used, left, hcs, hargs, hfits, rfl⟩
    exact hright hcs hargs hfits
  · obtain ⟨ts, used, left, hcs, hargs, hfits⟩ |
      ⟨ts, used, left, rest, fault, hcs, hrest, hargs, hfits, hw⟩ :=
        written_or_wrong template template.toList args
    · cases herror.symm.trans (hright hcs hargs hfits)
    · cases herror.symm.trans (hwrong hcs hrest hargs hfits hw)
      exact ⟨ts, used, left, rest, hcs, hrest, hargs, hfits, hw⟩
  · rintro ⟨ts, used, left, rest, hcs, hrest, hargs, hfits, hw⟩
    exact hwrong hcs hrest hargs hfits hw

/-- A zero and a minus as flags, a doubled percent sign before a placeholder and an argument too
many; and a percent sign in the place of a verb, behind a placeholder that is right. -/
theorem render_iff_written_mixed :
    (∃ ts used left, "%0-4d%%%q".toList = written ts ∧
      [some (.int (-7)), some (.str "a"), none] = used ++ left ∧ Fits ts used ∧
      "-7  %\"a\"" = String.ofList (fill ts used)) ∧
    ∃ ts used left rest, "%05d%5%".toList = written ts ++ '%' :: rest ∧ rest.head? ≠ some '%' ∧
      [some (.int (-42)), none] = used ++ left ∧ Fits ts used ∧
      Wrong "%05d%5%" rest left (.invalidFormat "%05d%5%" (.unknownVerb '%')) := by
  obtain ⟨-, hok, -⟩ := render_iff_written "%0-4d%%%q" [some (.int (-7)), some (.str "a"), none]
  obtain ⟨-, -, herror⟩ := render_iff_written "%05d%5%" [some (.int (-42)), none]
  exact ⟨(hok _).mp rfl, (herror _).mp rfl⟩

end StackMachine.Template
