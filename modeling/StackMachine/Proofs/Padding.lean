import Mathlib.Data.List.DropRight
import StackMachine.Proofs.Decoding
import StackMachine.Proofs.Rendering
import StackMachine.Proofs.Typed

/-!
# Padded fields

A placeholder fills its argument up to its width, with spaces at one end or with zeros behind the
sign. Either way the field is as long as the width asks for, or as the text where that is longer
(`Placeholder.length_field`), and the text is still in it (`Placeholder.infix_field`).

Zeros in front of its digits do not change the number that a text stands for, in decimal behind a
sign (`Denotes.zeroFill`) and in hexadecimal (`Writes.replicate_append`), and no number is written
with a space; so a padded number is read back, wherever the fill stands.
-/

namespace StackMachine

open Text

/-! ## Text among spaces -/

namespace Text

variable {text : List Char} (h : ∀ c ∈ text, c ≠ ' ')
include h

/-- Spaces in front are dropped, up to a text that has none there. -/
theorem dropWhile_spaces (fill : Nat) :
    (List.replicate fill ' ' ++ text).dropWhile (· == ' ') = text := by
  refine dropWhile_append_of_stops (fun c hc => ?_) fun c hc => ?_
  · rw [List.eq_of_mem_replicate hc]
    rfl
  · exact beq_eq_false_iff_ne.mpr (h c (List.mem_of_head? hc))

/-- Spaces behind are dropped, up to a text that has none there. -/
theorem rdropWhile_spaces (fill : Nat) :
    (text ++ List.replicate fill ' ').rdropWhile (· == ' ') = text := by
  have hreverse : ∀ c ∈ text.reverse, c ≠ ' ' := fun c hc => h c (List.mem_reverse.mp hc)
  rw [List.rdropWhile, List.reverse_append, List.reverse_replicate, dropWhile_spaces hreverse,
    List.reverse_reverse]

end Text

/-! ## Digits behind zeros -/

namespace Template

/-- Zeros make a text longer by their number. -/
theorem length_zeroFill (fill : Nat) (text : List Char) :
    (zeroFill fill text).length = fill + text.length := by
  unfold zeroFill
  split
  · simp only [List.length_cons, List.length_append, List.length_replicate, Nat.add_assoc]
  · simp only [List.length_append, List.length_replicate]

/-- No zeros are no change. -/
theorem zeroFill_zero (text : List Char) : zeroFill 0 text = text := by
  unfold zeroFill
  split <;> rfl

/-- Zeros stand in front of a text without a minus sign. -/
theorem zeroFill_of_head? {text : List Char} (h : text.head? ≠ some '-') (fill : Nat) :
    zeroFill fill text = List.replicate fill '0' ++ text := by
  unfold zeroFill
  split
  · exact absurd rfl h
  · rfl

end Template

namespace Numeral

/-- Zeros in front do not change the number. -/
theorem ofDigitChars_replicate_append (fill : Nat) (ds : List Char) :
    Nat.ofDigitChars 10 (List.replicate fill '0' ++ ds) 0 = Nat.ofDigitChars 10 ds 0 := by
  induction fill with
  | zero => rfl
  | succ fill ih => exact ih

/-- Zeros in front of digits are digits too. -/
theorem isDigit_replicate_append {fill : Nat} {ds : List Char} (h : ∀ d ∈ ds, d.isDigit = true) :
    ∀ d ∈ List.replicate fill '0' ++ ds, d.isDigit = true := by
  intro d hd
  obtain hzero | hd := List.mem_append.mp hd
  · rw [List.eq_of_mem_replicate hzero]
    decide
  · exact h d hd

/-- Zeros between sign and digits do not change the integer. -/
theorem Denotes.zeroFill {text : List Char} {k : Int} (h : Denotes text k) (fill : Nat) :
    Denotes (Template.zeroFill fill text) k := by
  cases h with
  | digits hne hdigits =>
    have hsign : text.head? ≠ some '-' := fun hsign =>
      absurd (hdigits '-' (List.mem_of_head? hsign)) (by decide)
    rw [Template.zeroFill_of_head? hsign, ← ofDigitChars_replicate_append fill]
    exact .digits (List.append_ne_nil_of_right_ne_nil _ hne) (isDigit_replicate_append hdigits)
  | @minus ds hne hdigits =>
    show Denotes ('-' :: (List.replicate fill '0' ++ ds)) _
    rw [← ofDigitChars_replicate_append fill]
    exact .minus (List.append_ne_nil_of_right_ne_nil _ hne) (isDigit_replicate_append hdigits)

/-- No number is written with a space. -/
theorem ne_space_of_mem_decimal (n : Int) : ∀ c ∈ decimal n, c ≠ ' ' := by
  rintro c hc rfl
  cases (Signed.numeral (denotes_decimal n)).isBlank_of_mem ' ' hc

end Numeral

namespace Escape

/-- A capital digit has the same value. -/
theorem IsDigit.toUpper {c : Char} {k : Nat} (h : IsDigit 16 c k) : IsDigit 16 c.toUpper k := by
  have htwice : ∀ k < 16, (Nat.digitChar k).toUpper.toUpper = (Nat.digitChar k).toUpper := by decide
  obtain ⟨hk, rfl | rfl⟩ := h
  · exact ⟨hk, .inr rfl⟩
  · exact ⟨hk, .inr (htwice k hk)⟩

/-- The case of its digits does not change a number. -/
theorem Writes.map_toUpper {digits : List Char} {n : Nat} (h : Writes 16 digits n) :
    Writes 16 (digits.map Char.toUpper) n := by
  obtain ⟨ks, hdigits, rfl⟩ := h
  exact ⟨ks, List.forall₂_map_left_iff.mpr (hdigits.imp fun _ _ => IsDigit.toUpper), rfl⟩

/-- One more digit. -/
theorem Writes.concat {base : Nat} {digits : List Char} {n : Nat} (h : Writes base digits n)
    {c : Char} {k : Nat} (hc : IsDigit base c k) : Writes base (digits ++ [c]) (k + base * n) := by
  obtain ⟨ks, hdigits, rfl⟩ := h
  refine ⟨ks ++ [k], List.rel_append hdigits (.cons hc .nil), ?_⟩
  rw [List.reverse_append, List.reverse_singleton, List.singleton_append, Nat.ofDigits_cons]

/-- Zeros in front of its digits do not change a number. -/
theorem Writes.replicate_append {digits : List Char} {n : Nat} (h : Writes 16 digits n)
    (fill : Nat) : Writes 16 (List.replicate fill '0' ++ digits) n := by
  induction fill with
  | zero => exact h
  | succ fill ih =>
    obtain ⟨ks, hdigits, hn⟩ := ih
    refine ⟨0 :: ks, .cons ⟨by decide, .inl rfl⟩ hdigits, ?_⟩
    rw [List.reverse_cons, Nat.ofDigits_append_zero, hn]

/-- The hexadecimal digits of a number write it. -/
theorem writes_toDigits (n : Nat) : Writes 16 (Nat.toDigits 16 n) n := by
  induction n using Nat.strong_induction_on with
  | _ n ih =>
    by_cases hn : n < 16
    · rw [Nat.toDigits_of_lt_base hn]
      exact ⟨[n], .cons ⟨hn, .inl rfl⟩ .nil, Nat.ofDigits_singleton.symm⟩
    · rw [Nat.toDigits_of_base_le (by decide) (by omega)]
      have hlast : IsDigit 16 (Nat.digitChar (n % 16)) (n % 16) :=
        ⟨Nat.mod_lt _ (by decide), .inl rfl⟩
      have hwrites := (ih (n / 16) (by omega)).concat hlast
      rwa [Nat.mod_add_div] at hwrites

/-- A minus sign is no digit. -/
theorem Writes.head?_ne {digits : List Char} {n : Nat} (h : Writes 16 digits n) :
    digits.head? ≠ some '-' := by
  intro hhead
  have hdigit := ((writes_iff (Nat.le_refl 16)).mp h).1 '-' (List.mem_of_head? hhead)
  exact absurd hdigit (by decide)

end Escape

namespace Template

/-! ## Fields -/

/-- Both hexadecimal verbs write the word without its sign. -/
theorem Verb.writes_text {verb : Verb} (h : verb ∈ [Verb.hex, Verb.upperHex]) (n : Int64) :
    Escape.Writes 16 (verb.text (some (.int n))) (n.toInt % 2 ^ 64).toNat := by
  have hlower : Escape.Writes 16 (Verb.hex.text (some (.int n))) (n.toInt % 2 ^ 64).toNat :=
    Escape.writes_toDigits _
  rcases List.mem_pair.mp h with rfl | rfl
  · exact hlower
  · exact hlower.map_toUpper

/-- Only a decimal number is written with a sign. -/
theorem Verb.eq_decimal_of_head? (verb : Verb) {arg : Slot} (hwants : verb.wants = some .int)
    (h : verb.Accepts (Slot.kind arg)) (hsign : (verb.text arg).head? = some '-') :
    verb = .decimal := by
  match arg, h _ hwants with
  | some (.int n), _ =>
    cases verb with
    | decimal => rfl
    | hex => exact absurd hsign (writes_text (by decide) n).head?_ne
    | upperHex => exact absurd hsign (writes_text (by decide) n).head?_ne
    | string | quoted | any => cases hwants

namespace Placeholder

variable (p : Placeholder) (arg : Slot)

/-- With a minus sign among the flags a field is filled with spaces behind the text. -/
theorem field_of_minus (h : '-' ∈ p.flags) :
    p.field arg = p.verb.text arg ++ List.replicate (p.width - (p.verb.text arg).length) ' ' :=
  if_pos h

/-- With a zero among the flags a number is filled with zeros. -/
theorem field_of_zero (hminus : '-' ∉ p.flags) (hzero : '0' ∈ p.flags)
    (hwants : p.verb.wants = some .int) :
    p.field arg = zeroFill (p.width - (p.verb.text arg).length) (p.verb.text arg) := by
  rw [field, if_neg hminus, if_pos ⟨hzero, hwants⟩, zeroFill_eq]

/-- Otherwise a field is filled with spaces in front of the text. -/
theorem field_of_plain (hminus : '-' ∉ p.flags)
    (hzero : ¬('0' ∈ p.flags ∧ p.verb.wants = some .int)) :
    p.field arg = List.replicate (p.width - (p.verb.text arg).length) ' ' ++ p.verb.text arg := by
  rw [field, if_neg hminus, if_neg hzero]
  rfl

/-- The three ways to fill up a field. -/
theorem field_cases :
    p.field arg = p.verb.text arg ++ List.replicate (p.width - (p.verb.text arg).length) ' ' ∨
    ('-' ∉ p.flags ∧ '0' ∈ p.flags ∧ p.verb.wants = some .int ∧
      p.field arg = zeroFill (p.width - (p.verb.text arg).length) (p.verb.text arg)) ∨
    p.field arg = List.replicate (p.width - (p.verb.text arg).length) ' ' ++ p.verb.text arg := by
  by_cases hminus : '-' ∈ p.flags
  · exact .inl (p.field_of_minus arg hminus)
  · by_cases hzero : '0' ∈ p.flags ∧ p.verb.wants = some .int
    · exact .inr (.inl ⟨hminus, hzero.1, hzero.2, p.field_of_zero arg hminus hzero.1 hzero.2⟩)
    · exact .inr (.inr (p.field_of_plain arg hminus hzero))

/-- A text that is not shorter than the width stays as it is. -/
theorem field_of_le (h : p.width ≤ (p.verb.text arg).length) : p.field arg = p.verb.text arg := by
  have hfill : p.width - (p.verb.text arg).length = 0 := Nat.sub_eq_zero_of_le h
  obtain hfield | ⟨-, -, -, hfield⟩ | hfield := p.field_cases arg
  · rw [hfield, hfill, List.replicate_zero, List.append_nil]
  · rw [hfield, hfill, zeroFill_zero]
  · rw [hfield, hfill, List.replicate_zero, List.nil_append]

/-- A field is as long as its width says, or as its text is if that is longer. -/
theorem length_field : (p.field arg).length = max p.width (p.verb.text arg).length := by
  have hlength : (p.field arg).length =
      (p.width - (p.verb.text arg).length) + (p.verb.text arg).length := by
    obtain hfield | ⟨-, -, -, hfield⟩ | hfield := p.field_cases arg
    · rw [hfield, List.length_append, List.length_replicate, Nat.add_comm]
    · rw [hfield, length_zeroFill]
    · rw [hfield, List.length_append, List.length_replicate]
  omega

/-- The text stands in the field as it is, unless it is a negative number: its sign goes in front of
the zeros. -/
theorem infix_field (h : p.verb.Accepts (Slot.kind arg)) : p.verb.text arg <:+: p.field arg ∨
    '-' ∉ p.flags ∧ '0' ∈ p.flags ∧ p.verb = .decimal ∧
      ∃ digits fill, p.verb.text arg = '-' :: digits ∧
      p.field arg = '-' :: (List.replicate fill '0' ++ digits) := by
  obtain hfield | ⟨hminus, hzero, hwants, hfield⟩ | hfield := p.field_cases arg
  · exact .inl (hfield ▸ (List.prefix_append ..).isInfix)
  · by_cases hsign : (p.verb.text arg).head? = some '-'
    · obtain ⟨digits, hdigits⟩ := List.head?_eq_some_iff.mp hsign
      rw [hdigits] at hfield
      exact .inr
        ⟨hminus, hzero, p.verb.eq_decimal_of_head? hwants h hsign, digits, _, hdigits, hfield⟩
    · rw [zeroFill_of_head? hsign] at hfield
      exact .inl (hfield ▸ (List.suffix_append ..).isInfix)
  · exact .inl (hfield ▸ (List.suffix_append ..).isInfix)

/-- Flags and a width are written one behind the other. The digits of no width begin with a zero, so
the width zero is one more flag. -/
theorem exists_chars_eq {flags : List Char} (hflags : ∀ c ∈ flags, c = '-' ∨ c = '0') (width : Nat)
    (verb : Verb) : ∃ p : Placeholder, p.chars = flags ++ (Nat.toDigits 10 width ++ [verb.char]) ∧
      p.verb = verb ∧ p.width = width ∧
      (p.flags = flags ∨ width = 0 ∧ p.flags = flags ++ ['0']) := by
  by_cases hwidth : width = 0
  · have hzero : ∀ c ∈ flags ++ ['0'], c = '-' ∨ c = '0' := by
      intro c hc
      obtain hc | hc := List.mem_append.mp hc
      · exact hflags c hc
      · exact .inr (List.mem_singleton.mp hc)
    subst hwidth
    refine ⟨⟨⟨flags ++ ['0'], [], hzero, nofun, nofun⟩, verb⟩, ?_, rfl, rfl, .inr ⟨rfl, rfl⟩⟩
    rw [Placeholder.chars, Spec.chars, List.append_nil, List.append_assoc]
    rfl
  · refine ⟨⟨⟨flags, Nat.toDigits 10 width, hflags, fun _ => Numeral.isDigit_of_mem_toDigits,
      mt Numeral.eq_zero_of_head?_toDigits hwidth⟩, verb⟩, ?_, rfl,
      Nat.ofDigitChars_ten_toDigits, .inl rfl⟩
    rw [Placeholder.chars, Spec.chars, List.append_assoc]

end Placeholder

/-- A placeholder writes its field in front of what the rest of the template renders to. -/
theorem render_placeholder {p : Placeholder} {arg : Slot} (h : p.verb.Accepts (Slot.kind arg))
    (rest : String) (args : List Slot) :
    render (String.ofList ('%' :: p.chars) ++ rest) (arg :: args) =
      (render rest args).map (String.ofList (p.field arg) ++ ·) := by
  rw [render, String.toList_append, String.toList_ofList, List.cons_append,
    renderPieces_placeholder h, render, map_map, map_map]
  congr 1
  funext out
  exact String.ofList_append

/-! ## Templates of one placeholder -/

section

variable {flags : List Char} {w : Nat} {verb : Verb} {arg : Slot} {template : String}

/-- A template of one placeholder renders to the field of it. -/
theorem exists_field (hflags : ∀ c ∈ flags, c = '-' ∨ c = '0')
    (haccepts : verb.Accepts (Slot.kind arg))
    (htemplate : template.toList = '%' :: (flags ++ (Nat.toDigits 10 w ++ [verb.char]))) :
    ∃ p : Placeholder, p.verb = verb ∧ p.width = w ∧
      (p.flags = flags ∨ w = 0 ∧ p.flags = flags ++ ['0']) ∧
      render template [arg] = .ok (String.ofList (p.field arg)) := by
  obtain ⟨p, hchars, rfl, hwidth, hcase⟩ := Placeholder.exists_chars_eq hflags w verb
  have hwritten : template.toList = written [.placeholder p] := by
    rw [htemplate, ← hchars, written_placeholder]
    exact congrArg _ (List.append_nil _).symm
  have hfits : Fits [.placeholder p] [arg] := .cons haccepts .nil
  refine ⟨p, rfl, hwidth, hcase, (render_of_written hwritten hfits []).trans ?_⟩
  exact congrArg (Except.ok ∘ String.ofList) (List.append_nil _)

/-- With a minus among the flags, spaces follow the text, whatever the other flags are. -/
theorem render_of_minus (hflags : ∀ c ∈ flags, c = '-' ∨ c = '0') (hminus : '-' ∈ flags)
    (haccepts : verb.Accepts (Slot.kind arg))
    (htemplate : template.toList = '%' :: (flags ++ (Nat.toDigits 10 w ++ [verb.char]))) :
    ∃ out fill, render template [arg] = .ok (String.ofList out) ∧
      out.length = max w (verb.text arg).length ∧
      out = verb.text arg ++ List.replicate fill ' ' := by
  obtain ⟨p, rfl, rfl, hcase, hrender⟩ := exists_field hflags haccepts htemplate
  have hmem : '-' ∈ p.flags := by
    obtain hcase | ⟨-, hcase⟩ := hcase
    · rwa [hcase]
    · rw [hcase]
      exact List.mem_append_left _ hminus
  exact ⟨_, _, hrender, p.length_field arg, p.field_of_minus arg hmem⟩

/-- With a zero as its flag, a number has zeros behind its sign. -/
theorem render_of_zero (hwants : verb.wants = some .int) (haccepts : verb.Accepts (Slot.kind arg))
    (htemplate : template.toList = '%' :: (['0'] ++ (Nat.toDigits 10 w ++ [verb.char]))) :
    ∃ out fill, render template [arg] = .ok (String.ofList out) ∧
      out.length = max w (verb.text arg).length ∧ out = zeroFill fill (verb.text arg) := by
  obtain ⟨p, rfl, rfl, hcase, hrender⟩ := exists_field (by simp) haccepts htemplate
  have hmem : '-' ∉ p.flags ∧ '0' ∈ p.flags := by
    obtain hcase | ⟨-, hcase⟩ := hcase <;> rw [hcase] <;> decide
  exact ⟨_, _, hrender, p.length_field arg, p.field_of_zero arg hmem.1 hmem.2 hwants⟩

/-- Without flags, spaces stand in front of the text. A width of zero is a flag, but then there is
nothing to fill up. -/
theorem render_of_no_flag (haccepts : verb.Accepts (Slot.kind arg))
    (htemplate : template.toList = '%' :: ([] ++ (Nat.toDigits 10 w ++ [verb.char]))) :
    ∃ out fill, render template [arg] = .ok (String.ofList out) ∧
      out.length = max w (verb.text arg).length ∧
      out = List.replicate fill ' ' ++ verb.text arg := by
  obtain ⟨p, rfl, rfl, hcase, hrender⟩ := exists_field (by simp) haccepts htemplate
  have hlength := p.length_field arg
  obtain hcase | ⟨hwidth, -⟩ := hcase
  · refine ⟨_, _, hrender, hlength, p.field_of_plain arg ?_ ?_⟩ <;> simp [hcase]
  · have htext : p.width ≤ (p.verb.text arg).length := hwidth ▸ Nat.zero_le _
    exact ⟨_, 0, hrender, hlength, p.field_of_le arg htext⟩

end

/-- A verb by itself writes the text of its argument. -/
theorem render_verb {verb : Verb} {arg : Slot} (h : verb.Accepts (Slot.kind arg)) :
    render (String.ofList ['%', verb.char]) [arg] = .ok (String.ofList (verb.text arg)) := by
  let p : Placeholder := ⟨⟨[], [], nofun, nofun, nofun⟩, verb⟩
  have hrender := render_placeholder (p := p) h "" []
  rw [p.field_of_le arg (Nat.zero_le _), String.append_empty] at hrender
  exact hrender.trans (congrArg Except.ok String.append_empty)

/-- The characters of a template with a width in it. -/
theorem toList_width (opening : String) (w : Nat) (closing : String) :
    (opening ++ toString w ++ closing).toList =
      opening.toList ++ (Nat.toDigits 10 w ++ closing.toList) := by
  rw [String.toList_append, String.toList_append, Nat.toString_eq_repr, Nat.toList_repr,
    List.append_assoc]

/-! ## Padded numbers -/

/-- The verbs for integers accept every integer. -/
theorem Verb.accepts_int (verb : Verb) (hwants : verb.wants = some .int) (n : Int64) :
    verb.Accepts (Slot.kind (some (.int n))) :=
  fun _ hwanted => Option.some.inj (hwants.symm.trans hwanted)

section

variable (n : Int64) {w : Nat} {template : String}

/-- Zeros in front of a decimal number leave it a numeral of the same word. -/
theorem render_decimal_of_zero
    (htemplate : template.toList = '%' :: (['0'] ++ (Nat.toDigits 10 w ++ ['d']))) :
    ∃ out, render template [some (.int n)] = .ok (String.ofList out) ∧
      out.length = max w (Numeral.decimal n.toInt).length ∧ Numeral.Denotes out n.toInt := by
  obtain ⟨out, fill, hrender, hlength, rfl⟩ :=
    render_of_zero rfl (Verb.decimal.accepts_int rfl n) htemplate
  exact ⟨_, hrender, hlength, (Numeral.denotes_decimal n.toInt).zeroFill fill⟩

/-- A width without a flag: the decimal form stands behind spaces. -/
theorem render_decimal_of_no_flag
    (htemplate : template.toList = '%' :: ([] ++ (Nat.toDigits 10 w ++ ['d']))) :
    ∃ out, render template [some (.int n)] = .ok (String.ofList out) ∧
      out.length = max w (Numeral.decimal n.toInt).length ∧
      out.dropWhile (· == ' ') = Numeral.decimal n.toInt := by
  obtain ⟨out, fill, hrender, hlength, rfl⟩ :=
    render_of_no_flag (Verb.decimal.accepts_int rfl n) htemplate
  exact ⟨_, hrender, hlength, dropWhile_spaces (Numeral.ne_space_of_mem_decimal _) fill⟩

/-- A width with a minus sign: the decimal form stands in front of spaces. -/
theorem render_decimal_of_minus (flags : List Char) (hflags : ∀ c ∈ flags, c = '-' ∨ c = '0')
    (hminus : '-' ∈ flags)
    (htemplate : template.toList = '%' :: (flags ++ (Nat.toDigits 10 w ++ ['d']))) :
    ∃ out, render template [some (.int n)] = .ok (String.ofList out) ∧
      out.length = max w (Numeral.decimal n.toInt).length ∧
      out.rdropWhile (· == ' ') = Numeral.decimal n.toInt := by
  obtain ⟨out, fill, hrender, hlength, rfl⟩ :=
    render_of_minus hflags hminus (Verb.decimal.accepts_int rfl n) htemplate
  exact ⟨_, hrender, hlength, rdropWhile_spaces (Numeral.ne_space_of_mem_decimal _) fill⟩

/-- A word has no sign in hexadecimal, so that zeros stand in front of all of its digits. -/
theorem render_hex_of_zero (verb : Verb) (hverb : verb ∈ [Verb.hex, Verb.upperHex])
    (htemplate : template.toList = '%' :: (['0'] ++ (Nat.toDigits 10 w ++ [verb.char]))) :
    ∃ out, render template [some (.int n)] = .ok (String.ofList out) ∧
      Escape.Writes 16 out (n.toInt % 2 ^ 64).toNat := by
  have hwants : verb.wants = some .int := by
    rcases List.mem_pair.mp hverb with rfl | rfl <;> rfl
  obtain ⟨out, fill, hrender, -, rfl⟩ := render_of_zero hwants (verb.accepts_int hwants n) htemplate
  have htext := verb.writes_text hverb n
  rw [zeroFill_of_head? htext.head?_ne] at hrender
  exact ⟨_, hrender, htext.replicate_append fill⟩

end

/-- Padding loses nothing and alters nothing. A number that is filled up with zeros reads back as
itself, in decimal with its sign and in hexadecimal modulo `2 ^ 64`; a number that is filled up with
spaces is its decimal form without them. Every field has as many characters as its width says, or as
its text where that is longer, and holds the text that the verb writes by itself; only the sign of a
decimal number leaves its digits, and goes in front of the zeros. -/
theorem padding_keeps_value :
    (∀ (n : Int64) (w : Nat),
      let decimal := Numeral.decimal n.toInt
      (∃ out, render s!"%0{w}d" [some (.int n)] = .ok (String.ofList out) ∧
        out.length = max w decimal.length ∧ Numeral.Denotes out n.toInt ∧
          Numeral.readInt out = .ok n) ∧
      (∃ out, render s!"%{w}d" [some (.int n)] = .ok (String.ofList out) ∧
        out.length = max w decimal.length ∧ out.dropWhile (· == ' ') = decimal) ∧
      (∀ flags ∈ ["-", "-0"], ∃ out,
        render s!"%{flags}{w}d" [some (.int n)] = .ok (String.ofList out) ∧
        out.length = max w decimal.length ∧ out.rdropWhile (· == ' ') = decimal) ∧
      ∀ verb ∈ ["x", "X"], ∃ out, render s!"%0{w}{verb}" [some (.int n)] = .ok (String.ofList out) ∧
        Escape.Writes 16 out (n.toInt % 0x10000000000000000).toNat) ∧
    ∀ (p : Placeholder) (arg : Slot), p.verb.Accepts (Slot.kind arg) → ∃ text field : List Char,
      render (String.ofList ['%', p.verb.char]) [arg] = .ok (String.ofList text) ∧
      (∀ rest args, render (String.ofList ('%' :: p.chars) ++ rest) (arg :: args) =
        (render rest args).map (String.ofList field ++ ·)) ∧
      field.length = max p.width text.length ∧
      (text <:+: field ∨ '-' ∉ p.flags ∧ '0' ∈ p.flags ∧ p.verb = .decimal ∧ ∃ digits fill,
        text = '-' :: digits ∧ field = '-' :: (List.replicate fill '0' ++ digits)) := by
  refine ⟨fun n w => ⟨?zeros, ?before, ?behind, ?hexadecimal⟩, fun p arg haccepts =>
    ⟨_, _, render_verb haccepts, render_placeholder haccepts, p.length_field arg,
      p.infix_field arg haccepts⟩⟩
  case zeros =>
    obtain ⟨out, hrender, hlength, hdenotes⟩ := render_decimal_of_zero n (toList_width "%0" w "d")
    exact ⟨out, hrender, hlength, hdenotes, Numeral.readInt_eq_ok_iff.mpr (.numeral hdenotes)⟩
  case before => exact render_decimal_of_no_flag n (toList_width "%" w "d")
  case behind =>
    intro flags hflags
    rcases List.mem_pair.mp hflags with rfl | rfl
    · exact render_decimal_of_minus n ['-'] (by simp) (by simp) (toList_width "%-" w "d")
    · exact render_decimal_of_minus n ['-', '0'] (by simp) (by simp) (toList_width "%-0" w "d")
  case hexadecimal =>
    intro verb hverb
    rcases List.mem_pair.mp hverb with rfl | rfl
    · exact render_hex_of_zero n .hex (by decide) (toList_width "%0" w "x")
    · exact render_hex_of_zero n .upperHex (by decide) (toList_width "%0" w "X")

/-- The least word behind zeros, too long for its width, and in hexadecimal; and a quoted string of
five characters in six bytes, with both flags. -/
theorem padding_keeps_value_at_ends :
    (∃ out, render "%025d" [some (.int Int64.minValue)] = .ok (String.ofList out) ∧
      out.length = 25 ∧ Numeral.readInt out = .ok Int64.minValue) ∧
    (∃ out, render "%-03d" [some (.int Int64.minValue)] = .ok (String.ofList out) ∧
      out.length = 20 ∧ out.rdropWhile (· == ' ') = "-9223372036854775808".toList) ∧
    (∃ out, render "%020X" [some (.int Int64.minValue)] = .ok (String.ofList out) ∧
      Escape.Writes 16 out 0x8000000000000000) ∧
    Verb.quoted.Accepts (Slot.kind (some (.str "é\""))) ∧
    ∃ text field : List Char, render "%q" [some (.str "é\"")] = .ok (String.ofList text) ∧
      (∀ rest args, render ("%0-8q" ++ rest) (some (.str "é\"") :: args) =
        (render rest args).map (String.ofList field ++ ·)) ∧
      field.length = max 8 text.length ∧ text <:+: field := by
  obtain ⟨hnumbers, hfields⟩ := padding_keeps_value
  obtain ⟨⟨out, hrender, hlength, -, hread⟩, -⟩ := hnumbers Int64.minValue 25
  obtain ⟨-, -, hbehind, -⟩ := hnumbers Int64.minValue 3
  obtain ⟨-, -, -, hhex⟩ := hnumbers Int64.minValue 20
  let p : Placeholder := ⟨⟨['0', '-'], ['8'], by simp, List.all_eq_true.mp rfl, by decide⟩, .quoted⟩
  have haccepts : Verb.quoted.Accepts (Slot.kind (some (.str "é\""))) :=
    fun _ h => Option.some.inj h
  obtain ⟨text, field, htext, hfield, hfit, hinfix⟩ := hfields p _ haccepts
  exact ⟨⟨out, hrender, hlength, hread⟩, hbehind "-0" (by decide), hhex "X" (by decide), haccepts,
    text, field, htext, hfield, hfit, hinfix.resolve_right fun h => h.1 (by decide)⟩

end Template

end StackMachine
