import Mathlib.Tactic.SplitIfs
import StackMachine.Assembly.Operand

/-!
# Literals are read back as they are written

`Numeral.decimal` and `Quoted.quoteChars` write the two kinds of literals; `Assembly.readInt` and
`Assembly.readString` read them behind blanks and in front of any further text. A string literal
ends itself, so nothing is asked of the text behind it (`readString_quoteChars`), and it is as many
bytes as its reader reads (`readString_quote`). A numeral is the longest one, so the text behind it
must not begin with a digit; it is read for the integer that it denotes, written as a decimal form
or in another way (`Numeral.Denotes`, `Numeral.denotes_decimal`, `readInt_eq_some_iff`).
-/

namespace StackMachine

/-! ## Mapped results -/

/-- A mapped result is a value if the result is. -/
theorem map_eq_ok_iff {x : Except ε α} {g : α → β} {b : β} :
    x.map g = .ok b ↔ ∃ a, x = .ok a ∧ g a = b := by
  cases x <;> simp [Except.map]

/-- A mapped result is an error if the result is. -/
theorem map_eq_error_iff {x : Except ε α} {g : α → β} {e : ε} :
    x.map g = .error e ↔ x = .error e := by
  cases x <;> simp [Except.map]

/-- Two maps are one. -/
theorem map_map (x : Except ε α) (f : α → β) (g : β → γ) : (x.map f).map g = x.map (g ∘ f) := by
  cases x <;> rfl

/-- A map of errors keeps a value. -/
theorem mapError_eq_ok_iff {x : Except ε α} {g : ε → δ} {a : α} :
    x.mapError g = .ok a ↔ x = .ok a := by
  cases x <;> simp [Except.mapError]

/-- A map of errors gives an error for an error. -/
theorem mapError_eq_error_iff {x : Except ε α} {g : ε → δ} {e : δ} :
    x.mapError g = .error e ↔ ∃ e', x = .error e' ∧ g e' = e := by
  cases x <;> simp [Except.mapError]

/-! ## The end of a run of characters -/

namespace Text

/-- The text is at its end or goes on with a character outside of the class. -/
def Stops (p : Char → Bool) (rest : List Char) : Prop := ∀ c ∈ rest.head?, p c = false

/-- An empty text stops. -/
@[simp] theorem stops_nil (p : Char → Bool) : Stops p [] := by simp [Stops]

/-- A text stops if its first character does. -/
@[simp] theorem stops_cons (p : Char → Bool) (c : Char) (cs : List Char) :
    Stops p (c :: cs) ↔ p c = false := by simp [Stops]

/-- A word outside of the class begins outside of it. -/
theorem stops_append {p : Char → Bool} {word : List Char} (hne : word ≠ [])
    (hword : ∀ c ∈ word, p c = false) (rest : List Char) : Stops p (word ++ rest) := by
  obtain ⟨c, cs, rfl⟩ := List.exists_cons_of_ne_nil hne
  exact (stops_cons ..).2 (hword c List.mem_cons_self)

/-- A run of the class that the text behind it does not continue is taken whole. -/
theorem takeWhile_append_of_stops {p : Char → Bool} {run rest : List Char}
    (hrun : ∀ c ∈ run, p c = true) (hrest : Stops p rest) : (run ++ rest).takeWhile p = run := by
  rw [List.takeWhile_append_of_pos hrun]
  cases rest with
  | nil => simp
  | cons c cs => simp [(stops_cons p c cs).1 hrest]

/-- A run of the class that the text behind it does not continue is dropped whole. -/
theorem dropWhile_append_of_stops {p : Char → Bool} {run rest : List Char}
    (hrun : ∀ c ∈ run, p c = true) (hrest : Stops p rest) : (run ++ rest).dropWhile p = rest := by
  rw [List.dropWhile_append_of_pos hrun]
  cases rest with
  | nil => rfl
  | cons c cs => simp [(stops_cons p c cs).1 hrest]

/-- A text is cut in one way only into a run of the class and a rest that does not continue it. -/
theorem takeWhile_dropWhile_eq_iff {p : Char → Bool} {cs run rest : List Char} :
    (cs.takeWhile p = run ∧ cs.dropWhile p = rest) ↔
      cs = run ++ rest ∧ (∀ c ∈ run, p c = true) ∧ Stops p rest := by
  constructor
  · rintro ⟨rfl, rfl⟩
    refine ⟨List.takeWhile_append_dropWhile.symm, List.all_eq_true.mp List.all_takeWhile, ?_⟩
    intro c hc
    have hhead := List.head?_dropWhile_not p cs
    rwa [hc] at hhead
  · rintro ⟨rfl, hrun, hrest⟩
    exact ⟨takeWhile_append_of_stops hrun hrest, dropWhile_append_of_stops hrun hrest⟩

/-- The character is no control character of ASCII. -/
def IsVisible (c : Char) : Prop := 0x20 ≤ c.toNat ∧ c.toNat ≠ 0x7F

instance (c : Char) : Decidable (IsVisible c) := inferInstanceAs (Decidable (_ ∧ _))

/-- The blanks in front of a text are skipped. -/
theorem skipBlanks_append {blanks rest : List Char} (hblanks : ∀ c ∈ blanks, isBlank c = true)
    (hrest : Stops isBlank rest) : skipBlanks (blanks ++ rest) = rest :=
  dropWhile_append_of_stops hblanks hrest

/-- What is skipped is a run of blanks, as long as there are any. -/
theorem skipBlanks_eq_iff {cs rest : List Char} : skipBlanks cs = rest ↔
    ∃ blanks, cs = blanks ++ rest ∧ (∀ c ∈ blanks, isBlank c = true) ∧ Stops isBlank rest := by
  constructor
  · intro h
    exact ⟨_, takeWhile_dropWhile_eq_iff.mp ⟨rfl, h⟩⟩
  · rintro ⟨blanks, hcut⟩
    exact (takeWhile_dropWhile_eq_iff.mpr hcut).2

/-- A text that does not begin with a blank is left as it is. -/
theorem skipBlanks_of_stops {rest : List Char} (hrest : Stops isBlank rest) :
    skipBlanks rest = rest := by
  cases rest with
  | nil => rfl
  | cons c cs => simp [skipBlanks, (stops_cons ..).1 hrest]

/-- The letters and digits of ASCII lie between the digit zero and the small letter z. -/
theorem toNat_of_isAlphanum {c : Char} (h : c.isAlphanum = true) :
    48 ≤ c.toNat ∧ c.toNat ≤ 122 := by
  have range {low high : UInt32} (h : c.val ≥ low ∧ c.val ≤ high) :
      low.toNat ≤ c.toNat ∧ c.toNat ≤ high.toNat :=
    ⟨UInt32.le_iff_toNat_le.mp h.1, UInt32.le_iff_toNat_le.mp h.2⟩
  obtain hletter | hdigit := Bool.or_eq_true_iff.mp h
  · obtain hupper | hlower := Bool.or_eq_true_iff.mp hletter
    · obtain ⟨h1, h2⟩ := range (of_decide_eq_true hupper)
      exact ⟨Nat.le_trans (by decide) h1, Nat.le_trans h2 (by decide)⟩
    · obtain ⟨hlow, hhigh⟩ := Bool.and_eq_true_iff.mp hlower
      obtain ⟨h1, h2⟩ := range ⟨of_decide_eq_true hlow, of_decide_eq_true hhigh⟩
      exact ⟨Nat.le_trans (by decide) h1, h2⟩
  · obtain ⟨hlow, hhigh⟩ := Bool.and_eq_true_iff.mp hdigit
    obtain ⟨h1, h2⟩ := range ⟨of_decide_eq_true hlow, of_decide_eq_true hhigh⟩
    exact ⟨h1, Nat.le_trans h2 (by decide)⟩

/-- A letter is a letter or a digit. -/
theorem isAlphanum_of_isAlpha {c : Char} (h : c.isAlpha = true) : c.isAlphanum = true :=
  Bool.or_eq_true_iff.mpr (.inl h)

/-- A digit is a letter or a digit. -/
theorem isAlphanum_of_isDigit {c : Char} (h : c.isDigit = true) : c.isAlphanum = true :=
  Bool.or_eq_true_iff.mpr (.inr h)

/-- A digit is no letter. -/
theorem isAlpha_of_isDigit {c : Char} (h : c.isDigit = true) : c.isAlpha = false := by
  have hnine : c.toNat ≤ 57 :=
    UInt32.le_iff_toNat_le.mp (of_decide_eq_true (Bool.and_eq_true_iff.mp h).2)
  rw [← Bool.not_eq_true]
  intro hletter
  obtain hupper | hlower := Bool.or_eq_true_iff.mp hletter
  · have hlow : 65 ≤ c.toNat := UInt32.le_iff_toNat_le.mp (of_decide_eq_true hupper).1
    omega
  · have hlow : 97 ≤ c.toNat :=
      UInt32.le_iff_toNat_le.mp (of_decide_eq_true (Bool.and_eq_true_iff.mp hlower).1)
    omega

/-- A character whose small form is a letter is a letter. -/
theorem isAlpha_of_toLower {c : Char} (h : c.toLower.isAlpha = true) : c.isAlpha = true := by
  unfold Char.toLower at h
  split at h
  · rename_i hupper
    exact Bool.or_eq_true_iff.mpr (.inl (decide_eq_true hupper))
  · exact h

/-- A letter or a digit is no blank. -/
theorem isBlank_of_isAlphanum {c : Char} (h : c.isAlphanum = true) : isBlank c = false := by
  have hc := toNat_of_isAlphanum h
  simp only [isBlank, Bool.or_eq_false_iff, Bool.and_eq_false_iff, decide_eq_false_iff_not,
    beq_eq_false_iff_ne]
  omega

/-- A letter or a digit is visible. -/
theorem isVisible_of_isAlphanum {c : Char} (h : c.isAlphanum = true) : IsVisible c := by
  have hc := toNat_of_isAlphanum h
  exact ⟨by omega, by omega⟩

end Text

/-! ## Numerals -/

namespace Numeral

open Text

/-- The digits of a decimal form. -/
theorem isDigit_of_mem_toDigits {n : Nat} {c : Char} (h : c ∈ Nat.toDigits 10 n) :
    c.isDigit = true :=
  Nat.isDigit_of_mem_toDigits (by decide) (by decide) h

/-- Only zero is written with a zero in front. -/
theorem eq_zero_of_head?_toDigits {n : Nat} (h : (Nat.toDigits 10 n).head? = some '0') : n = 0 := by
  induction n using Nat.strongRecOn with
  | ind n ih =>
    by_cases hn : n < 10
    · rw [Nat.toDigits_of_lt_base hn, List.head?_cons, Option.some.injEq] at h
      have hdigit : ∀ k < 10, Nat.digitChar k = '0' → k = 0 := by decide
      exact hdigit n hn h
    · obtain ⟨d, ds, hds⟩ :=
        List.exists_cons_of_ne_nil (Nat.toDigits_ne_nil (n := n / 10) (b := 10))
      rw [Nat.toDigits_of_base_le (by decide) (Nat.le_of_not_lt hn), hds] at h
      have hzero := ih (n / 10) (by omega) (hds ▸ h)
      omega

/-- A decimal form is a sign, which is a minus or nothing, and digits. -/
theorem exists_decimal_eq (n : Int) : ∃ d ds, Nat.toDigits 10 n.natAbs = d :: ds ∧
    d.isDigit = true ∧ decimal n = (if n < 0 then ['-'] else []) ++ d :: ds := by
  obtain ⟨d, ds, h⟩ := List.exists_cons_of_ne_nil (Nat.toDigits_ne_nil (n := n.natAbs) (b := 10))
  refine ⟨d, ds, h, isDigit_of_mem_toDigits (n := n.natAbs) (by simp [h]), ?_⟩
  rw [decimal, h]
  split <;> rfl

/-- In front of a digit there is no sign. -/
theorem splitSign_of_isDigit {c : Char} (h : c.isDigit = true) (cs : List Char) :
    splitSign (c :: cs) = ([], c :: cs) := by
  unfold splitSign
  split
  · rename_i heq
    cases heq
    exact absurd h (by decide)
  · rfl

/-- Digits behind a sign that the text behind them does not continue are scanned whole. -/
theorem scan_of_splitSign {cs sign digits rest : List Char}
    (hsign : splitSign cs = (sign, digits ++ rest))
    (hne : digits ≠ []) (hdigits : ∀ c ∈ digits, c.isDigit = true)
    (hrest : Stops Char.isDigit rest) : scan cs = some (sign ++ digits, rest) := by
  obtain ⟨d, ds, rfl⟩ := List.exists_cons_of_ne_nil hne
  rw [scan, hsign, takeWhile_append_of_stops hdigits hrest, dropWhile_append_of_stops hdigits hrest]

/-- A decimal form is scanned whole. -/
theorem scan_decimal (n : Int) {rest : List Char} (hrest : Stops Char.isDigit rest) :
    scan (decimal n ++ rest) = some (decimal n, rest) := by
  obtain ⟨d, ds, hdig, hd, hdec⟩ := exists_decimal_eq n
  have hrun : ∀ c ∈ d :: ds, c.isDigit = true := fun c hc => isDigit_of_mem_toDigits (hdig ▸ hc)
  have hsign : splitSign (decimal n ++ rest) =
      (if n < 0 then ['-'] else [], d :: ds ++ rest) := by
    rw [hdec]
    split
    · rfl
    · exact splitSign_of_isDigit hd _
  rw [scan_of_splitSign hsign (List.cons_ne_nil d ds) hrun hrest, hdec]

/-- A decimal form denotes its integer. -/
theorem denote_decimal (n : Int) : denote (decimal n) = n := by
  obtain ⟨d, ds, hdig, hd, hdec⟩ := exists_decimal_eq n
  have hval : Nat.ofDigitChars 10 (d :: ds) 0 = n.natAbs := by
    rw [← hdig, Nat.ofDigitChars_ten_toDigits]
  rw [hdec]
  by_cases hn : n < 0
  · rw [if_pos hn]
    simp only [List.cons_append, List.nil_append, denote, hval]
    omega
  · rw [if_neg hn, List.nil_append, denote.eq_def]
    split
    · rename_i heq
      cases heq
      exact absurd hd (by decide)
    · rw [hval]
      omega

/-- Every word fits a word. -/
theorem word?_toInt (n : Int64) : word? n.toInt = some n := by
  have hmin : Int64.minValue.toInt ≤ n.toInt := Int64.le_toInt n
  have hmax : n.toInt ≤ Int64.maxValue.toInt := Int.le_of_lt_add_one (Int64.toInt_lt n)
  rw [word?, if_pos ⟨hmin, hmax⟩, Int64.ofInt_toInt]

/-- A decimal form is written without control characters. -/
theorem isVisible_of_mem_decimal {n : Int} {c : Char} (h : c ∈ decimal n) : IsVisible c := by
  have hdigit : ∀ d ∈ Nat.toDigits 10 n.natAbs, IsVisible d := fun d hd =>
    isVisible_of_isAlphanum (isAlphanum_of_isDigit (isDigit_of_mem_toDigits hd))
  unfold decimal at h
  split at h
  · rcases List.mem_cons.1 h with rfl | h
    · decide
    · exact hdigit c h
  · exact hdigit c h

/-- A numeral and the integer that it denotes: one or more digits, perhaps behind a minus sign. -/
inductive Denotes : List Char → Int → Prop
  | digits {ds : List Char} : ds ≠ [] → (∀ d ∈ ds, d.isDigit = true) →
      Denotes ds (Nat.ofDigitChars 10 ds 0)
  | minus {ds : List Char} : ds ≠ [] → (∀ d ∈ ds, d.isDigit = true) →
      Denotes ('-' :: ds) (-(Nat.ofDigitChars 10 ds 0 : Int))

/-- A numeral denotes what is computed from it. -/
theorem Denotes.denote_eq {numeral : List Char} {k : Int} (h : Denotes numeral k) :
    denote numeral = k := by
  cases h with
  | digits hne hdigits =>
    obtain ⟨d, ds, rfl⟩ := List.exists_cons_of_ne_nil hne
    unfold denote
    split
    · rename_i heq
      cases heq
      exact absurd (hdigits '-' List.mem_cons_self) (by decide)
    · rfl
  | minus _ _ => rfl

/-- A numeral begins with a digit or a minus sign. -/
theorem Denotes.stops_append {numeral : List Char} {k : Int} (h : Denotes numeral k)
    {p : Char → Bool}
    (hminus : p '-' = false) (hdigit : ∀ d, d.isDigit = true → p d = false) (rest : List Char) :
    Stops p (numeral ++ rest) := by
  cases h with
  | digits hne hdigits => exact Text.stops_append hne (fun d hd => hdigit d (hdigits d hd)) rest
  | minus _ _ => exact (stops_cons ..).mpr hminus

/-- A word is given by the integer that it stands for. -/
theorem word?_eq_some_iff {k : Int} {n : Int64} : word? k = some n ↔ n.toInt = k := by
  constructor
  · intro h
    unfold word? at h
    split at h
    · rename_i hrange
      cases h
      exact Int64.toInt_ofInt_of_le hrange.1 (Int.lt_add_one_of_le hrange.2)
    · cases h
  · rintro rfl
    exact word?_toInt n

/-- A text begins with a minus sign or is split nowhere. -/
theorem splitSign_cases (cs : List Char) :
    (∃ rest, splitSign cs = (['-'], rest)) ∨ splitSign cs = ([], cs) := by
  unfold splitSign
  split
  · exact .inl ⟨_, rfl⟩
  · exact .inr rfl

/-- The longest numeral is taken off the front of a text. -/
theorem scan_eq_some_iff {cs numeral tail : List Char} : scan cs = some (numeral, tail) ↔
    cs = numeral ++ tail ∧ (∃ k, Denotes numeral k) ∧ Stops Char.isDigit tail := by
  constructor
  · intro h
    refine ⟨(append_eq_of_scan h).symm, ?_⟩
    rw [scan] at h
    split at h
    · cases h
    · rename_i d ds hrun
      cases h
      obtain ⟨-, hdigits, hstop⟩ := takeWhile_dropWhile_eq_iff.mp ⟨hrun, rfl⟩
      refine ⟨?_, hstop⟩
      obtain ⟨rest, hsign⟩ | hsign := splitSign_cases cs
      · rw [hsign]
        exact ⟨_, .minus (List.cons_ne_nil d ds) hdigits⟩
      · rw [hsign]
        exact ⟨_, .digits (List.cons_ne_nil d ds) hdigits⟩
  · rintro ⟨rfl, ⟨k, hnumeral⟩, hstop⟩
    cases hnumeral with
    | digits hne hdigits =>
      have hsign : splitSign (numeral ++ tail) = ([], numeral ++ tail) := by
        obtain ⟨d, ds, rfl⟩ := List.exists_cons_of_ne_nil hne
        exact splitSign_of_isDigit (hdigits d List.mem_cons_self) (ds ++ tail)
      exact scan_of_splitSign hsign hne hdigits hstop
    | @minus ds hne hdigits =>
      have hsign : splitSign ('-' :: ds ++ tail) = (['-'], ds ++ tail) := rfl
      exact scan_of_splitSign hsign hne hdigits hstop

/-- The decimal form of an integer is a numeral for it. -/
theorem denotes_decimal (n : Int) : Denotes (decimal n) n := by
  obtain ⟨-, ⟨k, hk⟩, -⟩ := scan_eq_some_iff.mp (scan_decimal n (stops_nil _))
  obtain rfl : n = k := (denote_decimal n).symm.trans hk.denote_eq
  exact hk

/-- The integers that fit no word. -/
theorem word?_eq_none_iff {k : Int} :
    word? k = none ↔ k < -0x8000000000000000 ∨ 0x8000000000000000 ≤ k := by
  have hmin : Int64.minValue.toInt = -0x8000000000000000 := rfl
  have hmax : Int64.maxValue.toInt = 0x8000000000000000 - 1 := rfl
  rw [word?, hmin, hmax]
  constructor
  · intro h
    split at h
    · cases h
    · omega
  · intro h
    rw [if_neg (by omega)]

/-- A numeral is not empty. -/
theorem Denotes.ne_nil {numeral : List Char} {k : Int} (h : Denotes numeral k) : numeral ≠ [] := by
  cases h with
  | digits hne _ => exact hne
  | minus _ _ => exact List.cons_ne_nil _ _

/-- The word that a numeral is read as is the integer that it denotes. -/
theorem Denotes.word?_denote_eq_some_iff {numeral : List Char} {k : Int} (h : Denotes numeral k)
    {n : Int64} : word? (denote numeral) = some n ↔ Denotes numeral n.toInt := by
  rw [h.denote_eq, word?_eq_some_iff]
  constructor
  · intro hn
    rwa [hn]
  · intro hn
    rw [← hn.denote_eq, h.denote_eq]

end Numeral

/-! ## Quoted literals -/

namespace Quoted

open Numeral (hexDigit)

/-- A hexadecimal digit is an ordinary character of a literal. -/
theorem hexDigit_plain (n : Nat) :
    Text.IsVisible (hexDigit n) ∧ hexDigit n ≠ '"' ∧ hexDigit n ≠ '\\' := by
  have h : ∀ k < 16, Text.IsVisible (Nat.digitChar k) ∧ Nat.digitChar k ≠ '"' ∧
      Nat.digitChar k ≠ '\\' := by decide
  exact h (n % 16) (Nat.mod_lt _ (by decide))

/-- The two digits of a byte denote it. -/
theorem valueOf_hexDigit : ∀ n < 256, [hexDigit (n / 16), hexDigit n].all (Escape.isDigitOf 16) ∧
    Escape.valueOf 16 [hexDigit (n / 16), hexDigit n] = n := by
  decide +kernel

/-- The two digits of a byte name the character of that code. -/
theorem hexChar_hexDigit (c : Char) (h : c.toNat < 256) :
    Escape.hexChar 2 [hexDigit (c.toNat / 16), hexDigit c.toNat] = .ok c := by
  obtain ⟨hall, hval⟩ := valueOf_hexDigit c.toNat h
  have hscalar : Escape.scalar? c.toNat = some c := by
    rw [Escape.scalar?, if_pos (show c.toNat.isValidChar from c.valid), Char.ofNat_toNat]
  rw [Escape.hexChar, if_pos ⟨rfl, hall⟩, hval, hscalar]

/-- How a character is written: by an escape of one letter, by its code, or as it is. -/
theorem quoteChar_cases (c : Char) :
    (∃ name, quoteChar c = ['\\', name] ∧ Escape.simple? name = some c ∧
      name ∈ ['"', '\\', 'n', 'r', 't']) ∨
    (quoteChar c = ['\\', 'x', hexDigit (c.toNat / 16), hexDigit c.toNat] ∧ c.toNat < 128) ∨
    (quoteChar c = [c] ∧ c ≠ '"' ∧ c ≠ '\\' ∧ Text.IsVisible c) := by
  unfold quoteChar
  split_ifs with h1 h2 h3 h4 h5 h6
  · exact .inl ⟨'"', rfl, by rw [h1]; rfl, by simp⟩
  · exact .inl ⟨'\\', rfl, by rw [h2]; rfl, by simp⟩
  · exact .inl ⟨'n', rfl, by rw [h3]; rfl, by simp⟩
  · exact .inl ⟨'r', rfl, by rw [h4]; rfl, by simp⟩
  · exact .inl ⟨'t', rfl, by rw [h5]; rfl, by simp⟩
  · exact .inr (.inl ⟨rfl, by omega⟩)
  · exact .inr (.inr ⟨rfl, h1, h2, ⟨by omega, by omega⟩⟩)

/-- What a character is written as denotes that character. -/
theorem unescape_quoteChar_append (c : Char) (rest : List Char) :
    Escape.unescape (quoteChar c ++ rest) = (Escape.unescape rest).map (c :: ·) := by
  rcases quoteChar_cases c with ⟨name, hq, hs, _⟩ | ⟨hq, hc⟩ | ⟨hq, _, hb, _⟩
  · simp [hq, Escape.unescape_backslash, Escape.escape, hs]
  · simp [hq, Escape.unescape_backslash, Escape.escape, Escape.simple?, Escape.hexWidth?,
      hexChar_hexDigit c (by omega), Except.map]
  · rw [hq]
    exact Escape.unescape_cons_of_ne hb rest

/-- A body is quoted character by character. -/
@[simp] theorem quoteBody_cons (c : Char) (cs : List Char) :
    quoteBody (c :: cs) = quoteChar c ++ quoteBody cs := by
  simp [quoteBody]

/-- The body of a literal denotes the text that it was written for. -/
theorem unescape_quoteBody (cs : List Char) : Escape.unescape (quoteBody cs) = .ok cs := by
  induction cs with
  | nil => rfl
  | cons c cs ih =>
    rw [quoteBody_cons, unescape_quoteChar_append, ih]
    rfl

/-- The scanner passes over a character that is neither a quote nor a backslash. -/
theorem scan_cons_of_ne {c : Char} (hq : c ≠ '"') (hb : c ≠ '\\') (cs : List Char) :
    scan (c :: cs) = (scan cs).map fun (body, tail) => (c :: body, tail) := by
  rw [scan.eq_def]
  split <;> simp_all

/-- The scanner passes over what a character is written as. -/
theorem scan_quoteChar_append (c : Char) (rest : List Char) :
    scan (quoteChar c ++ rest) =
      (scan rest).map fun (body, tail) => (quoteChar c ++ body, tail) := by
  rcases quoteChar_cases c with ⟨name, hq, _, hm⟩ | ⟨hq, hc⟩ | ⟨hq, hd, hb, _⟩
  · have hn : name ≠ '\n' := by rintro rfl; revert hm; decide
    simp [hq, scan, hn]
  · obtain ⟨_, hq₁, hb₁⟩ := hexDigit_plain (c.toNat / 16)
    obtain ⟨_, hq₂, hb₂⟩ := hexDigit_plain c.toNat
    simp [hq, scan, scan_cons_of_ne hq₁ hb₁, scan_cons_of_ne hq₂ hb₂, Function.comp_def]
  · rw [hq]
    exact scan_cons_of_ne hd hb rest

/-- The scanner stops at the quote that closes a literal. -/
theorem scan_quoteBody_append (cs rest : List Char) :
    scan (quoteBody cs ++ '"' :: rest) = some (quoteBody cs, rest) := by
  induction cs with
  | nil => rfl
  | cons c cs ih =>
    rw [quoteBody_cons, List.append_assoc, scan_quoteChar_append, ih]
    rfl

/-- A literal is written without control characters, so it stays on one line. -/
theorem isVisible_of_mem_quoteChar {c d : Char} (h : d ∈ quoteChar c) : Text.IsVisible d := by
  rcases quoteChar_cases c with ⟨name, hq, _, hm⟩ | ⟨hq, hc⟩ | ⟨hq, _, _, hv⟩
  · rw [hq] at h
    simp only [List.mem_cons, List.not_mem_nil, or_false] at h hm
    rcases h with rfl | rfl
    · decide
    · rcases hm with rfl | rfl | rfl | rfl | rfl <;> decide
  · rw [hq] at h
    simp only [List.mem_cons, List.not_mem_nil, or_false] at h
    rcases h with rfl | rfl | rfl | rfl
    · decide
    · decide
    · exact (hexDigit_plain _).1
    · exact (hexDigit_plain _).1
  · rw [hq, List.mem_singleton] at h
    exact h ▸ hv

/-- Every character of a literal is visible. -/
theorem isVisible_of_mem_quoteChars {cs : List Char} {d : Char} (h : d ∈ quoteChars cs) :
    Text.IsVisible d := by
  simp only [quoteChars, List.mem_cons, List.mem_append, List.not_mem_nil, or_false] at h
  rcases h with rfl | h | rfl
  · decide
  · obtain ⟨c, _, hd⟩ := List.mem_flatMap.1 h
    exact isVisible_of_mem_quoteChar hd
  · decide

end Quoted

/-! ## Operands -/

namespace Assembly

open Text

/-- An integer is read off blanks and the longest numeral behind them, and the count is theirs. -/
theorem readInt_eq_some_iff {rest : List Char} {n : Int64} {k : Nat} :
    readInt rest = .ok (some (n, k)) ↔
      ∃ blanks numeral tail, rest = blanks ++ (numeral ++ tail) ∧
        (∀ c ∈ blanks, isBlank c = true) ∧ Numeral.Denotes numeral n.toInt ∧
        Stops Char.isDigit tail ∧ k = utf8Length (blanks ++ numeral) := by
  have hfront : ∀ {numeral : List Char} {n : Int}, Numeral.Denotes numeral n → ∀ tail,
      Stops isBlank (numeral ++ tail) := fun hnumeral tail => hnumeral.stops_append (by decide)
    (fun _ hd => isBlank_of_isAlphanum (isAlphanum_of_isDigit hd)) tail
  constructor
  · intro h
    unfold readInt at h
    split at h
    · cases h
    · rename_i numeral tail hscan
      obtain ⟨hcut, ⟨k, hnumeral⟩, hstop⟩ := Numeral.scan_eq_some_iff.mp hscan
      rw [hnumeral.denote_eq] at h
      split at h
      · rename_i n' hword
        cases h
        rw [← Numeral.word?_eq_some_iff.mp hword] at hnumeral
        obtain ⟨blanks, rfl, hblanks, -⟩ := skipBlanks_eq_iff.mp hcut
        refine ⟨blanks, numeral, tail, rfl, hblanks, hnumeral, hstop, ?_⟩
        rw [takeWhile_append_of_stops hblanks (hfront hnumeral tail)]
      · cases h
  · rintro ⟨blanks, numeral, tail, rfl, hblanks, hnumeral, hstop, rfl⟩
    have hscan := Numeral.scan_eq_some_iff.mpr ⟨rfl, ⟨_, hnumeral⟩, hstop⟩
    simp only [readInt, skipBlanks_append hblanks (hfront hnumeral tail), hscan,
      takeWhile_append_of_stops hblanks (hfront hnumeral tail), hnumeral.denote_eq,
      Numeral.word?_toInt]

/-- A string literal behind blanks is read as its string, whatever follows it. -/
theorem readString_quoteChars {blanks : List Char} (cs rest : List Char)
    (hblanks : ∀ c ∈ blanks, isBlank c = true) :
    readString (blanks ++ (Quoted.quoteChars cs ++ rest)) =
      .ok (some (String.ofList cs, utf8Length (blanks ++ Quoted.quoteChars cs))) := by
  have hlit : Quoted.quoteChars cs ++ rest = '"' :: (Quoted.quoteBody cs ++ '"' :: rest) := by
    simp [Quoted.quoteChars]
  have hfront : Stops isBlank (Quoted.quoteChars cs ++ rest) := by
    rw [hlit]
    exact (stops_cons ..).2 (by decide)
  have hskip : skipBlanks (blanks ++ (Quoted.quoteChars cs ++ rest)) =
      '"' :: (Quoted.quoteBody cs ++ '"' :: rest) := by
    rw [skipBlanks_append hblanks hfront, hlit]
  simp only [readString, hskip, Quoted.scan_quoteBody_append, Quoted.unescape_quoteBody,
    takeWhile_append_of_stops hblanks hfront]
  rfl

/-- The literal that denotes a string ends itself: behind blanks it is read as that string, and the
count that is given is that of the blanks and of the literal, whatever follows; behind so many bytes
the rest of the text begins. The literal has no control character of ASCII, so it stays on one
line. -/
theorem readString_quote (s blanks rest : String)
    (hblanks : ∀ c ∈ blanks.toList, isBlank c = true) :
    readString (blanks ++ Quoted.quote s ++ rest).toList =
      .ok (some (s, blanks.utf8ByteSize + (Quoted.quote s).utf8ByteSize)) ∧
    behind? (blanks ++ Quoted.quote s ++ rest).toList
      (blanks.utf8ByteSize + (Quoted.quote s).utf8ByteSize) = some rest.toList ∧
    ∀ c ∈ (Quoted.quote s).toList, 0x20 ≤ c.toNat ∧ c.toNat ≠ 0x7F := by
  have hquote : (Quoted.quote s).toList = Quoted.quoteChars s.toList := String.toList_ofList
  have hcount : blanks.utf8ByteSize + (Quoted.quote s).utf8ByteSize =
      utf8Length (blanks.toList ++ Quoted.quoteChars s.toList) := by
    rw [utf8Length_append, ← hquote, utf8Length_toList, utf8Length_toList]
  rw [hcount, String.toList_append, String.toList_append, hquote]
  refine ⟨?_, behind?_append _ _, fun c hc => Quoted.isVisible_of_mem_quoteChars hc⟩
  rw [List.append_assoc, readString_quoteChars s.toList rest.toList hblanks, String.ofList_toList]

/-- Behind blanks of three kinds, a string that ends with a backslash and holds a quote and control
characters; the text behind its literal begins with a quote and holds the end of another literal. -/
theorem readString_quote_backslash :
    (∀ c ∈ "\u3000\n ".toList, isBlank c = true) ∧
    readString "\u3000\n \"é\\\"\\x7f\\r\\\\\"\" \"".toList =
      .ok (some ("é\"\x7f\r\\", 5 + 14)) ∧
    behind? "\u3000\n \"é\\\"\\x7f\\r\\\\\"\" \"".toList (5 + 14) = some "\" \"".toList := by
  have hblanks : ∀ c ∈ "\u3000\n ".toList, isBlank c = true := List.all_eq_true.mp (by decide)
  have hread := readString_quote "é\"\x7f\r\\" "\u3000\n " "\" \"" hblanks
  have htext : "\u3000\n " ++ Quoted.quote "é\"\x7f\r\\" ++ "\" \"" =
      "\u3000\n \"é\\\"\\x7f\\r\\\\\"\" \"" := by
    decide
  have hcount : "\u3000\n ".utf8ByteSize + (Quoted.quote "é\"\x7f\r\\").utf8ByteSize = 5 + 14 := by
    decide
  rw [htext, hcount] at hread
  exact ⟨hblanks, hread.1, hread.2.1⟩

end Assembly

end StackMachine
