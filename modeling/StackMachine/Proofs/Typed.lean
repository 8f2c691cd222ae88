import StackMachine.Parameter
import StackMachine.Proofs.Literal

/-!
# Values typed by a user

What a user types for an integer is a numeral, or digits behind a plus sign (`Numeral.Signed`), with
blanks around it or not (`Numeral.Typed`). `Numeral.readInt` goes through it from the left and gives
up as soon as the digits so far are beyond a bound. That is no other answer than the one to be had
at the end, since digits only ever make a number larger (`readDigits_of_isDigit`): a number is read
exactly if it fits a word, and otherwise is refused for the end of the range that it lies beyond
(`Signed.readInt_eq`). Nothing else is read (`readInt_eq_ok_iff`, `readInt_trim_eq_ok_iff`).

A parameter is set in place to what is typed for it. That is all or nothing: the parameter, and with
it the header, is replaced by the one with the new value or is what it was (`Parameter.run_set`,
`Header.set_eq`).
-/

namespace StackMachine

open Text

/-! ## Blanks at both ends -/

namespace Text

/-- A text is what is left of it without the blanks at its ends, and these blanks. -/
theorem exists_eq_append_trim (cs : List Char) : ∃ before after, cs = before ++ (trim cs ++ after) ∧
    (∀ c ∈ before, isBlank c = true) ∧ ∀ c ∈ after, isBlank c = true := by
  obtain ⟨before, hbefore, hblanks, -⟩ := skipBlanks_eq_iff.mp (rfl : skipBlanks cs = skipBlanks cs)
  have hend := List.takeWhile_append_dropWhile (p := isBlank) (l := (skipBlanks cs).reverse)
  refine ⟨before, ((skipBlanks cs).reverse.takeWhile isBlank).reverse, ?_, hblanks, fun c hc => ?_⟩
  · rw [trim, dropEndBlanks, ← List.reverse_append, hend, List.reverse_reverse]
    exact hbefore
  · exact List.all_eq_true.mp List.all_takeWhile c (List.mem_reverse.mp hc)

/-- A word among blanks is what is left without them. -/
theorem trim_append {before word after : List Char} (hbefore : ∀ c ∈ before, isBlank c = true)
    (hafter : ∀ c ∈ after, isBlank c = true) (hne : word ≠ [])
    (hword : ∀ c ∈ word, isBlank c = false) : trim (before ++ (word ++ after)) = word := by
  have hfront : Stops isBlank (word ++ after) := stops_append hne hword after
  have hend : Stops isBlank (word.reverse ++ []) :=
    stops_append (List.reverse_ne_nil_iff.mpr hne) (fun c hc => hword c (List.mem_reverse.mp hc)) []
  rw [List.append_nil] at hend
  rw [trim, skipBlanks_append hbefore hfront, dropEndBlanks, List.reverse_append,
    dropWhile_append_of_stops (fun c hc => hafter c (List.mem_reverse.mp hc)) hend,
    List.reverse_reverse]

end Text

namespace Numeral

/-! ## Digits -/

/-- More digits do not make a number smaller. -/
theorem le_ofDigitChars (ds : List Char) (acc : Nat) : acc ≤ Nat.ofDigitChars 10 ds acc := by
  rw [Nat.ofDigitChars_eq_ofDigitChars_zero]
  have hscale : 1 * acc ≤ 10 ^ ds.length * acc := Nat.mul_le_mul_right acc (Nat.pow_pos (by decide))
  omega

/-- Digits are read as the number that they denote, unless that is beyond the bound; those that are
not looked at would only make it larger. -/
theorem readDigits_of_isDigit {bound acc : Nat} {beyond : Fault} {ds : List Char}
    (hdigits : ∀ d ∈ ds, d.isDigit = true) (hacc : acc ≤ bound) :
    readDigits bound beyond acc ds =
      if Nat.ofDigitChars 10 ds acc ≤ bound then .ok (Nat.ofDigitChars 10 ds acc)
      else .error beyond := by
  induction ds generalizing acc with
  | nil => exact (if_pos hacc).symm
  | cons d ds ih =>
    obtain ⟨hd, hds⟩ := List.forall_mem_cons.mp hdigits
    rw [readDigits, if_pos hd, Nat.ofDigitChars_cons]
    dsimp only
    split
    · rename_i hnext
      exact ih hds hnext
    · rename_i hnext
      have hle := le_ofDigitChars ds (10 * acc + (d.toNat - '0'.toNat))
      rw [if_neg (by omega)]

/-- Only digits are read as digits. -/
theorem isDigit_of_readDigits {bound acc n : Nat} {beyond : Fault} {ds : List Char}
    (h : readDigits bound beyond acc ds = .ok n) : ∀ d ∈ ds, d.isDigit = true := by
  induction ds generalizing acc with
  | nil => nofun
  | cons d ds ih =>
    rw [readDigits] at h
    split at h
    · rename_i hd
      dsimp only at h
      split at h
      · exact List.forall_mem_cons.mpr ⟨hd, ih h⟩
      · cases h
    · cases h

/-- A number of at least one digit is read, unless it is beyond the bound. -/
theorem readMagnitude_of_isDigit {bound : Nat} {beyond : Fault} {ds : List Char} (hne : ds ≠ [])
    (hdigits : ∀ d ∈ ds, d.isDigit = true) :
    readMagnitude bound beyond ds =
      if Nat.ofDigitChars 10 ds 0 ≤ bound then .ok (Nat.ofDigitChars 10 ds 0)
      else .error beyond := by
  obtain ⟨d, ds, rfl⟩ := List.exists_cons_of_ne_nil hne
  exact readDigits_of_isDigit hdigits (Nat.zero_le bound)

/-- Only digits are read as a number. -/
theorem isDigit_of_readMagnitude {bound : Nat} {beyond : Fault} {ds : List Char}
    (h : ∀ fault, readMagnitude bound beyond ds ≠ .error fault) :
    ds ≠ [] ∧ ∀ d ∈ ds, d.isDigit = true := by
  cases hread : readMagnitude bound beyond ds with
  | error fault => exact absurd hread (h fault)
  | ok n =>
    cases ds with
    | nil => cases hread
    | cons d ds => exact ⟨List.cons_ne_nil d ds, isDigit_of_readDigits hread⟩

/-! ## Signs -/

/-- A number with or without a sign, and the integer that it denotes: a numeral, or one or more
digits behind a plus sign. -/
inductive Signed : List Char → Int → Prop
  | numeral {cs : List Char} {k : Int} : Denotes cs k → Signed cs k
  | plus {ds : List Char} : ds ≠ [] → (∀ d ∈ ds, d.isDigit = true) →
      Signed ('+' :: ds) (Nat.ofDigitChars 10 ds 0)

/-- The fault of a number that fits no word. -/
def outOfRange (k : Int) : Fault := if k < 0 then .tooSmall else .tooLarge

/-- The word that is equal to an integer, or why there is none. -/
def toWord (k : Int) : Except Fault Int64 :=
  match word? k with
  | some n => .ok n
  | none => .error (outOfRange k)

/-- An integer is a word if there is one equal to it. -/
theorem toWord_eq_ok_iff {k : Int} {n : Int64} : toWord k = .ok n ↔ n.toInt = k := by
  rw [← word?_eq_some_iff, toWord]
  cases word? k <;> simp

/-- An integer that is no word is out of range. -/
theorem toWord_of_none {k : Int} (h : word? k = none) : toWord k = .error (outOfRange k) := by
  rw [toWord, h]

/-- The integers from zero up fit a word up to the greatest one. -/
theorem toWord_natCast (n : Nat) :
    toWord n =
      if n ≤ Int64.maxValue.toInt.natAbs then .ok (Int64.ofInt n) else .error .tooLarge := by
  have hmax : Int64.maxValue.toInt.natAbs = 0x7FFFFFFFFFFFFFFF := rfl
  rw [hmax]
  split
  · exact toWord_eq_ok_iff.mpr (Int64.toInt_ofInt_of_le (by omega) (by omega))
  · rw [toWord_of_none (word?_eq_none_iff.mpr (by omega)), outOfRange, if_neg (by omega)]

/-- The integers from zero down fit a word down to the least one. -/
theorem toWord_neg_natCast (n : Nat) :
    toWord (-n) =
      if n ≤ Int64.minValue.toInt.natAbs then .ok (Int64.ofInt (-n)) else .error .tooSmall := by
  have hmin : Int64.minValue.toInt.natAbs = 0x8000000000000000 := rfl
  rw [hmin]
  split
  · exact toWord_eq_ok_iff.mpr (Int64.toInt_ofInt_of_le (by omega) (by omega))
  · rw [toWord_of_none (word?_eq_none_iff.mpr (by omega)), outOfRange, if_pos (by omega)]

/-- A text that begins with no sign is read as digits. -/
theorem readInt_of_isDigit {d : Char} (hd : d.isDigit = true) (ds : List Char) :
    readInt (d :: ds) =
      (readMagnitude Int64.maxValue.toInt.natAbs .tooLarge (d :: ds)).map
        fun n => Int64.ofInt n := by
  unfold readInt
  split
  · rename_i heq
    cases heq
  · rename_i heq
    cases heq
    exact absurd hd (by decide)
  · rename_i heq
    cases heq
    exact absurd hd (by decide)
  · rfl

/-- A number is read as the word that is equal to it, if there is one. -/
theorem Signed.readInt_eq {cs : List Char} {k : Int} (h : Signed cs k) : readInt cs = toWord k := by
  cases h with
  | numeral hnumeral =>
    cases hnumeral with
    | digits hne hdigits =>
      obtain ⟨d, ds, rfl⟩ := List.exists_cons_of_ne_nil hne
      rw [readInt_of_isDigit (hdigits d List.mem_cons_self), readMagnitude_of_isDigit hne hdigits,
        toWord_natCast]
      split <;> rfl
    | minus hne hdigits =>
      rw [readInt, readMagnitude_of_isDigit hne hdigits, toWord_neg_natCast]
      split <;> rfl
  | plus hne hdigits =>
    rw [readInt, readMagnitude_of_isDigit hne hdigits, toWord_natCast]
    split <;> rfl

/-- What is read is a number. -/
theorem exists_signed_of_readInt {cs : List Char} {n : Int64} (h : readInt cs = .ok n) :
    ∃ k, Signed cs k := by
  unfold readInt at h
  split at h
  · cases h
  · obtain ⟨hne, hdigits⟩ := isDigit_of_readMagnitude fun fault hfault => by
      rw [hfault] at h
      cases h
    exact ⟨_, .numeral (.minus hne hdigits)⟩
  · obtain ⟨hne, hdigits⟩ := isDigit_of_readMagnitude fun fault hfault => by
      rw [hfault] at h
      cases h
    exact ⟨_, .plus hne hdigits⟩
  · obtain ⟨hne, hdigits⟩ := isDigit_of_readMagnitude fun fault hfault => by
      rw [hfault] at h
      cases h
    exact ⟨_, .numeral (.digits hne hdigits)⟩

/-- A text is read as a word exactly if it is a number equal to it. -/
theorem readInt_eq_ok_iff {cs : List Char} {n : Int64} :
    readInt cs = .ok n ↔ Signed cs n.toInt := by
  constructor
  · intro h
    obtain ⟨k, hk⟩ := exists_signed_of_readInt h
    rw [hk.readInt_eq, toWord_eq_ok_iff] at h
    exact h ▸ hk
  · intro h
    rw [h.readInt_eq, toWord_eq_ok_iff]

/-! ## Blanks around a number -/

/-- A number among blanks, and the integer that it denotes. -/
def Typed (cs : List Char) (k : Int) : Prop :=
  ∃ before number after, cs = before ++ (number ++ after) ∧ (∀ c ∈ before, isBlank c = true) ∧
    (∀ c ∈ after, isBlank c = true) ∧ Signed number k

/-- A number is typed without blanks too. -/
theorem Signed.typed {cs : List Char} {k : Int} (h : Signed cs k) : Typed cs k :=
  ⟨[], cs, [], (List.append_nil cs).symm, nofun, nofun, h⟩

/-- A number is made of digits and signs. -/
theorem Signed.chars {cs : List Char} {k : Int} (h : Signed cs k) :
    cs ≠ [] ∧ ∀ c ∈ cs, c = '-' ∨ c = '+' ∨ c.isDigit = true := by
  cases h with
  | numeral hnumeral =>
    cases hnumeral with
    | digits hne hdigits => exact ⟨hne, fun c hc => .inr (.inr (hdigits c hc))⟩
    | minus hne hdigits =>
      exact ⟨List.cons_ne_nil _ _, List.forall_mem_cons.mpr
        ⟨.inl rfl, fun c hc => .inr (.inr (hdigits c hc))⟩⟩
  | plus hne hdigits =>
    exact ⟨List.cons_ne_nil _ _, List.forall_mem_cons.mpr
      ⟨.inr (.inl rfl), fun c hc => .inr (.inr (hdigits c hc))⟩⟩

/-- A number has no blanks in it. -/
theorem Signed.isBlank_of_mem {cs : List Char} {k : Int} (h : Signed cs k) :
    ∀ c ∈ cs, isBlank c = false := by
  intro c hc
  rcases h.chars.2 c hc with rfl | rfl | hdigit
  · decide
  · decide
  · exact isBlank_of_isAlphanum (isAlphanum_of_isDigit hdigit)

/-- Without the blanks around it a number is read as the word that is equal to it, if there is
one. -/
theorem Typed.readInt_trim {cs : List Char} {k : Int} (h : Typed cs k) :
    readInt (trim cs) = toWord k := by
  obtain ⟨before, number, after, rfl, hbefore, hafter, hnumber⟩ := h
  rw [trim_append hbefore hafter hnumber.chars.1 hnumber.isBlank_of_mem, hnumber.readInt_eq]

/-- A text is read as a word, blanks at its ends ignored, exactly if it is typed for it. -/
theorem readInt_trim_eq_ok_iff {cs : List Char} {n : Int64} :
    readInt (trim cs) = .ok n ↔ Typed cs n.toInt := by
  constructor
  · intro h
    obtain ⟨before, after, hcs, hbefore, hafter⟩ := exists_eq_append_trim cs
    exact ⟨before, trim cs, after, hcs, hbefore, hafter, readInt_eq_ok_iff.mp h⟩
  · intro h
    rw [h.readInt_trim, toWord_eq_ok_iff]

end Numeral

/-! ## Parameters -/

/-- The parameter with its value replaced by what a user typed. -/
def Parameter.override (p : Parameter) (raw : String) : Except Fault Parameter :=
  match p.value with
  | .int _ =>
    match Numeral.readInt (trim raw.toList) with
    | .error cause => .error (.notInteger p.name raw cause)
    | .ok n => .ok { p with value := .int n }
  | .str _ => .ok { p with value := .str raw }

/-- A parameter that is set has the new value; one that refuses is what it was. -/
theorem Parameter.run_set (p : Parameter) (raw : String) :
    (Parameter.set raw).run p =
      match p.override raw with
      | .error fault => (.error fault, p)
      | .ok p' => (.ok (), p') := by
  obtain ⟨name, address, value⟩ := p
  cases value with
  | int m =>
    dsimp only [override]
    cases hread : Numeral.readInt (trim raw.toList) with
    | error cause => simp only [Parameter.set, hread]; rfl
    | ok n => simp only [Parameter.set, hread]; rfl
  | str s => rfl

/-- The header with the first parameter of this name overridden. -/
def Header.override (name raw : String) : Header → Except Parameter.Fault Header
  | [] => .error (.unknown name)
  | p :: ps =>
    if p.name = name then (p.override raw).map (· :: ps)
    else (override name raw ps).map (p :: ·)

/-- Setting a parameter of a header gives the header with the new value; a refusal leaves it what it
was. -/
theorem Header.set_eq (h : Header) (name raw : String) :
    h.set name raw =
      match h.override name raw with
      | .error fault => (.error fault, h)
      | .ok h' => (.ok (), h') := by
  induction h with
  | nil => rfl
  | cons p ps ih =>
    rw [Header.set, override]
    split
    · rw [Parameter.run_set]
      cases p.override raw <;> rfl
    · rw [ih]
      cases override name raw ps <;> rfl

end StackMachine
