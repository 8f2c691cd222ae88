import Mathlib.Data.List.DropRight
import StackMachine.Json.Reader
import StackMachine.Json.Writer
import StackMachine.Proofs.Literal

/-!
# JSON values are read back as they are written

`Reads cs j` says that a text is taken off the front of any longer one as the value `j`, if no
character that could belong to a number follows. There is one law for each way to put a text
together: a number, a string, blanks in front, an array of items and an object of members, with the
commas, brackets and blanks between them (`Reads.int` to `Reads.object`). Both layouts of the writer
are put together in these ways, so a value with a written form (`Plain`) is read back from either
(`Plain.reads_compact`, `Plain.reads_pretty`), and the whole text is parsed as that value
(`parse?_compact`, `parse?_pretty`).

The bound on the nesting never shows: a text needs no more than its own length (`Reads`).
-/

namespace StackMachine.Json

open Text
open Numeral (hexDigit)

/-! ## Strings -/

/-- How a character is written: by an escape of one letter, by its number, or as it is. -/
theorem escapeChar_cases (c : Char) :
    (∃ name, escapeChar c = ['\\', name] ∧ name ≠ 'u' ∧ simple? name = some c) ∨
    (escapeChar c = ['\\', 'u', '0', '0', hexDigit (c.toNat / 16), hexDigit c.toNat] ∧
      c.toNat < 0x20) ∨
    (escapeChar c = [c] ∧ c ≠ '"' ∧ c ≠ '\\' ∧ ¬c.toNat < 0x20) := by
  unfold escapeChar
  split
  · exact .inl ⟨'"', rfl, by decide, rfl⟩
  · exact .inl ⟨'\\', rfl, by decide, rfl⟩
  · exact .inl ⟨'b', rfl, by decide, rfl⟩
  · exact .inl ⟨'f', rfl, by decide, rfl⟩
  · exact .inl ⟨'n', rfl, by decide, rfl⟩
  · exact .inl ⟨'r', rfl, by decide, rfl⟩
  · exact .inl ⟨'t', rfl, by decide, rfl⟩
  · rename_i hquote hbackslash _ _ _ _ _
    split
    · rename_i hcontrol
      exact .inr (.inl ⟨rfl, hcontrol⟩)
    · rename_i hcontrol
      exact .inr (.inr ⟨rfl, hquote, hbackslash, hcontrol⟩)

/-- The unit stands for the character, by itself or by the number of a control. -/
def CodeUnit.Names (u : CodeUnit) (c : Char) : Prop :=
  u = .char c ∨ (u = .code c.toNat ∧ c.toNat < 0x20)

/-- The four digits of a control denote its number. -/
theorem hex4?_hexDigit : ∀ n < 0x20, hex4? '0' '0' (hexDigit (n / 16)) (hexDigit n) = some n := by
  decide

/-- A written character is scanned as a unit that stands for it. -/
theorem scanUnits_escapeChar (c : Char) : ∃ u : CodeUnit, u.Names c ∧ ∀ cs us rest,
    scanUnits cs = some (us, rest) → scanUnits (escapeChar c ++ cs) = some (u :: us, rest) := by
  obtain ⟨name, hc, hu, hname⟩ | ⟨hc, hcontrol⟩ | ⟨hc, hquote, hbackslash, hcontrol⟩ :=
    escapeChar_cases c
  · refine ⟨.char c, .inl rfl, fun cs us rest hcs => ?_⟩
    rw [hc, List.cons_append, List.singleton_append, scanUnits, hname, hcs]
    exact fun a b c d cs hu' _ => hu hu'
  · refine ⟨.code c.toNat, .inr ⟨rfl, hcontrol⟩, fun cs us rest hcs => ?_⟩
    rw [hc]
    simp only [List.cons_append, List.nil_append, scanUnits, hex4?_hexDigit _ hcontrol, hcs]
  · refine ⟨.char c, .inl rfl, fun cs us rest hcs => ?_⟩
    rw [hc, List.singleton_append, scanUnits, if_neg (not_or.mpr ⟨hbackslash, hcontrol⟩), hcs]
    · rfl
    · exact hquote
    · exact fun _ _ _ _ _ hname _ => hbackslash hname
    · exact fun _ _ hname _ => hbackslash hname

/-- A unit that stands for a character gives that character. A control is neither half of a
surrogate pair, so what follows it is not looked at. -/
theorem textOfUnits?_cons {u : CodeUnit} {c : Char} (h : u.Names c) (us : List CodeUnit) :
    textOfUnits? (u :: us) = (textOfUnits? us).map (c :: ·) := by
  obtain rfl | ⟨rfl, hcontrol⟩ := h
  · rw [textOfUnits?]
  · have hhigh : isHighHalf c.toNat = false := by
      simp only [isHighHalf, Bool.and_eq_false_iff, decide_eq_false_iff_not]
      omega
    have hlow : isLowHalf c.toNat = false := by
      simp only [isLowHalf, Bool.and_eq_false_iff, decide_eq_false_iff_not]
      omega
    cases us with
    | nil => simp [textOfUnits?, hhigh, hlow]
    | cons u us =>
      cases u with
      | char d => simp [textOfUnits?, hhigh, hlow]
      | code n => rw [textOfUnits?.eq_3]; simp [hhigh, hlow]

/-- A text is read back as it is written, whatever follows its closing quote. -/
theorem readString_writeText (s : String) (rest : List Char) :
    readString (s.toList.flatMap escapeChar ++ '"' :: rest) = some (some s, rest) := by
  have hchars : ∀ cs : List Char, ∃ us,
      scanUnits (cs.flatMap escapeChar ++ '"' :: rest) = some (us, rest) ∧
        textOfUnits? us = some cs := by
    intro cs
    induction cs with
    | nil => exact ⟨[], rfl, rfl⟩
    | cons c cs ih =>
      obtain ⟨us, hscan, htext⟩ := ih
      obtain ⟨u, hu, hc⟩ := scanUnits_escapeChar c
      refine ⟨u :: us, ?_, ?_⟩
      · rw [List.flatMap_cons, List.append_assoc]
        exact hc _ us rest hscan
      · rw [textOfUnits?_cons hu, htext, Option.map_some]
  obtain ⟨us, hscan, htext⟩ := hchars s.toList
  rw [readString, hscan, Option.map_some]
  dsimp only
  rw [htext, Option.map_some, String.ofList_toList]

/-! ## Numbers -/

/-- The character continues a number that stands before it. -/
def isNumberChar (c : Char) : Bool := c.isDigit || c == '.' || c == 'e' || c == 'E'

/-- Where a number has ended there is no fraction. -/
theorem readFraction_of_stops {rest : List Char} (h : Stops isNumberChar rest) :
    readFraction rest = some ([], rest) := by
  unfold readFraction
  split
  · cases (stops_cons ..).mp h
  · rfl

/-- Where a number has ended there is no exponent. -/
theorem readExponent_of_stops {rest : List Char} (h : Stops isNumberChar rest) :
    readExponent rest = some ([], rest) := by
  unfold readExponent
  split
  · rfl
  · rw [if_neg]
    rintro (rfl | rfl)
    · cases (stops_cons ..).mp h
    · cases (stops_cons ..).mp h

/-- The digits of a natural number are read whole. -/
theorem readWhole_toDigits (n : Nat) {rest : List Char} (h : Stops isNumberChar rest) :
    readWhole (Nat.toDigits 10 n ++ rest) = some (Nat.toDigits 10 n, rest) := by
  have hdigits : ∀ c ∈ Nat.toDigits 10 n, c.isDigit = true := fun c hc =>
    Numeral.isDigit_of_mem_toDigits hc
  have hrest : Stops Char.isDigit rest := fun c hc => by
    have hnot := h c hc
    simp only [isNumberChar, Bool.or_eq_false_iff] at hnot
    exact hnot.1.1.1
  obtain ⟨d, ds, hds⟩ := List.exists_cons_of_ne_nil (Nat.toDigits_ne_nil (n := n) (b := 10))
  by_cases hn : n = 0
  · subst hn
    rfl
  · have hzero : d ≠ '0' := by
      rintro rfl
      exact hn (Numeral.eq_zero_of_head?_toDigits (by rw [hds, List.head?_cons]))
    rw [hds] at hdigits ⊢
    rw [List.cons_append, readWhole, readDigits, ← List.cons_append,
      takeWhile_append_of_stops hdigits hrest, dropWhile_append_of_stops hdigits hrest]
    exact fun _ hd => hzero (List.cons.inj hd).1

/-- An integer is read back as it is written. Minus zero is the one numeral of this shape that is
not taken for an integer, and no integer is written so. -/
theorem readNumber_decimal (n : Int) {rest : List Char} (h : Stops isNumberChar rest) :
    readNumber (Numeral.decimal n ++ rest) = some (.int n, rest) := by
  obtain ⟨d, ds, hds, hd, hdec⟩ := Numeral.exists_decimal_eq n
  have hsplit : Numeral.splitSign (Numeral.decimal n ++ rest) =
      (if n < 0 then ['-'] else [], Nat.toDigits 10 n.natAbs ++ rest) := by
    rw [hdec, hds]
    split
    · rfl
    · exact Numeral.splitSign_of_isDigit hd _
  have hnumeral :
      (if n < 0 then ['-'] else []) ++ Nat.toDigits 10 n.natAbs = Numeral.decimal n := by
    rw [hdec, hds]
  have hminus : Numeral.decimal n ≠ ['-', '0'] := by
    intro heq
    have hn : n = 0 := by
      rw [← Numeral.denote_decimal n, heq]
      rfl
    subst hn
    cases heq
  rw [readNumber, hsplit, readWhole_toDigits n.natAbs h]
  dsimp only
  rw [readFraction_of_stops h]
  dsimp only
  rw [readExponent_of_stops h]
  dsimp only
  rw [hnumeral, if_pos ⟨rfl, rfl, hminus⟩, Numeral.denote_decimal]

/-! ## Putting texts together -/

/-- The text is taken off the front of any longer one as this value, if no character of a number
follows. -/
def Reads (cs : List Char) (j : Json) : Prop :=
  ∀ fuel rest, cs.length ≤ fuel → Stops isNumberChar rest →
    readValue fuel (cs ++ rest) = some (j, rest)

/-- The text is taken off in front of a closing bracket as these items. -/
def ReadsItems (cs : List Char) (items : List Json) : Prop :=
  ∀ fuel rest, cs.length < fuel → readItems fuel (cs ++ ']' :: rest) = some (items, rest)

/-- The text is taken off in front of a closing brace as these members. -/
def ReadsMembers (cs : List Char) (members : List (Option String × Json)) : Prop :=
  ∀ fuel rest, cs.length < fuel → readMembers fuel (cs ++ '\x7d' :: rest) = some (members, rest)

/-- The characters are blanks. -/
def Blank (cs : List Char) : Prop := ∀ c ∈ cs, isSpace c = true

/-- Blanks are skipped. -/
theorem skipSpace_append {blanks : List Char} (h : Blank blanks) (cs : List Char) :
    skipSpace (blanks ++ cs) = skipSpace cs :=
  List.dropWhile_append_of_pos h

/-- Behind blanks that were skipped there are none to skip. -/
theorem skipSpace_skipSpace (cs : List Char) : skipSpace (skipSpace cs) = skipSpace cs :=
  List.dropWhile_idempotent ..

/-- A value is read behind the blanks in front of it. -/
theorem readValue_skipSpace (fuel : Nat) (cs : List Char) :
    readValue fuel (skipSpace cs) = readValue fuel cs := by
  cases fuel with
  | zero => rw [readValue, readValue]
  | succ fuel => rw [readValue, readValue, skipSpace_skipSpace]

/-- Items are read behind the blanks in front of them. -/
theorem readItems_skipSpace (fuel : Nat) (cs : List Char) :
    readItems fuel (skipSpace cs) = readItems fuel cs := by
  cases fuel with
  | zero => rw [readItems, readItems]
  | succ fuel => rw [readItems, readItems, readValue_skipSpace]

/-- Members are read behind the blanks in front of them. -/
theorem readMembers_skipSpace (fuel : Nat) (cs : List Char) :
    readMembers fuel (skipSpace cs) = readMembers fuel cs := by
  cases fuel with
  | zero => rw [readMembers, readMembers]
  | succ fuel => rw [readMembers, readMembers, skipSpace_skipSpace]

/-! The first character decides how a value is read. -/

/-- A quote begins a string. -/
theorem readValue_quote (fuel : Nat) (cs : List Char) :
    readValue (fuel + 1) ('"' :: cs) =
      (readString cs).map fun (text, rest) => (.string text, rest) :=
  rfl

/-- A bracket begins the items of an array, unless it is closed at once. -/
theorem readValue_bracket {fuel : Nat} {cs : List Char} (h : (skipSpace cs).head? ≠ some ']') :
    readValue (fuel + 1) ('[' :: cs) =
      (readItems fuel cs).map fun (items, rest) => (.array items, rest) := by
  have hskip : skipSpace ('[' :: cs) = '[' :: cs := rfl
  rw [← readItems_skipSpace]
  simp only [readValue, hskip]
  split
  · rename_i hclosed
    rw [hclosed] at h
    exact absurd rfl h
  · rfl

/-- A brace begins the members of an object, unless it is closed at once. -/
theorem readValue_brace {fuel : Nat} {cs : List Char} (h : (skipSpace cs).head? ≠ some '\x7d') :
    readValue (fuel + 1) ('\x7b' :: cs) =
      (readMembers fuel cs).map fun (members, rest) => (.object members, rest) := by
  have hskip : skipSpace ('\x7b' :: cs) = '\x7b' :: cs := rfl
  rw [← readMembers_skipSpace]
  simp only [readValue, hskip]
  split
  · rename_i hclosed
    rw [hclosed] at h
    exact absurd rfl h
  · rfl

/-- A digit or a minus sign begins a number. -/
theorem readValue_number {fuel : Nat} {c : Char} {cs : List Char} (h : c.isDigit = true ∨ c = '-') :
    readValue (fuel + 1) (c :: cs) = readNumber (c :: cs) := by
  have hne : ∀ d : Char, d.isDigit = false → d ≠ '-' → c ≠ d := by
    rintro d hdigit hminus rfl
    exact h.elim (fun hc => Bool.noConfusion (hdigit.symm.trans hc)) hminus
  have hskip : skipSpace (c :: cs) = c :: cs := by
    refine List.dropWhile_cons_of_neg ?_
    simp only [isSpace, Bool.or_eq_true, beq_iff_eq]
    rintro (((rfl | rfl) | rfl) | rfl) <;> exact hne _ rfl (by decide) rfl
  rw [readValue, hskip]
  split
  case h_7 => rfl
  all_goals
    rename_i heq
    exact absurd (List.cons.inj heq).1 (hne _ rfl (by decide))

/-- No item begins with a closing bracket. -/
theorem readItems_close (fuel : Nat) (rest : List Char) : readItems fuel (']' :: rest) = none := by
  cases fuel with
  | zero => rfl
  | succ fuel => cases fuel <;> rfl

/-- No member begins with a closing brace. -/
theorem readMembers_close (fuel : Nat) (rest : List Char) :
    readMembers fuel ('\x7d' :: rest) = none := by
  cases fuel with
  | zero => rfl
  | succ fuel => rfl

namespace Reads

/-- Blanks in front of a text do not matter. -/
theorem blanks {bs cs : List Char} {j : Json} (hbs : Blank bs) (h : Reads cs j) :
    Reads (bs ++ cs) j := by
  intro fuel rest hfuel hrest
  rw [List.length_append] at hfuel
  rw [List.append_assoc, ← readValue_skipSpace, skipSpace_append hbs, readValue_skipSpace]
  exact h fuel rest (by omega) hrest

/-- `null` is read. -/
theorem null : Reads "null".toList .null := by
  intro fuel rest hfuel _
  cases fuel with
  | zero => cases hfuel
  | succ fuel => rfl

/-- Truth values are read back. -/
theorem bool (b : Bool) : Reads (writeAtom (.bool b)) (.bool b) := by
  intro fuel rest hfuel _
  cases fuel with
  | zero => cases b <;> cases hfuel
  | succ fuel => cases b <;> rfl

/-- Strings are read back. -/
theorem string (s : String) : Reads (writeText s) (.string (some s)) := by
  intro fuel rest hfuel _
  cases fuel with
  | zero => cases hfuel
  | succ fuel =>
    rw [writeText, List.cons_append, List.append_assoc, List.singleton_append, readValue_quote,
      readString_writeText, Option.map_some]

/-- Integers are read back. -/
theorem int (n : Int) : Reads (Numeral.decimal n) (.int n) := by
  intro fuel rest hfuel hrest
  obtain ⟨c, cs, hcs, hc⟩ : ∃ c cs, Numeral.decimal n = c :: cs ∧ (c.isDigit = true ∨ c = '-') := by
    obtain ⟨d, ds, -, hd, hdec⟩ := Numeral.exists_decimal_eq n
    rw [hdec]
    split
    · exact ⟨'-', _, rfl, .inr rfl⟩
    · exact ⟨d, ds, rfl, .inl hd⟩
  cases fuel with
  | zero =>
    rw [hcs] at hfuel
    cases hfuel
  | succ fuel =>
    rw [hcs, List.cons_append, readValue_number hc, ← List.cons_append, ← hcs,
      readNumber_decimal n hrest]

/-- The array without items is read. -/
theorem emptyArray : Reads ['[', ']'] (.array []) := by
  intro fuel rest hfuel _
  cases fuel with
  | zero => cases hfuel
  | succ fuel => rfl

/-- The object without members is read. -/
theorem emptyObject : Reads ['\x7b', '\x7d'] (.object []) := by
  intro fuel rest hfuel _
  cases fuel with
  | zero => cases hfuel
  | succ fuel => rfl

/-- Items in brackets are an array. What they begin with is no closing bracket, since no item
does. -/
theorem array {cs : List Char} {items : List Json} (h : ReadsItems cs items) :
    Reads ('[' :: (cs ++ [']'])) (.array items) := by
  intro fuel rest hfuel _
  cases fuel with
  | zero => cases hfuel
  | succ fuel =>
    simp only [List.length_cons, List.length_append, List.length_nil] at hfuel
    have hread := h fuel rest (by omega)
    have hopen : (skipSpace (cs ++ ']' :: rest)).head? ≠ some ']' := by
      intro hclosed
      obtain ⟨tail, htail⟩ := List.head?_eq_some_iff.mp hclosed
      rw [← readItems_skipSpace, htail, readItems_close] at hread
      cases hread
    rw [List.cons_append, List.append_assoc, List.singleton_append, readValue_bracket hopen, hread,
      Option.map_some]

/-- Members in braces are an object. -/
theorem object {cs : List Char} {members : List (Option String × Json)}
    (h : ReadsMembers cs members) : Reads ('\x7b' :: (cs ++ ['\x7d'])) (.object members) := by
  intro fuel rest hfuel _
  cases fuel with
  | zero => cases hfuel
  | succ fuel =>
    simp only [List.length_cons, List.length_append, List.length_nil] at hfuel
    have hread := h fuel rest (by omega)
    have hopen : (skipSpace (cs ++ '\x7d' :: rest)).head? ≠ some '\x7d' := by
      intro hclosed
      obtain ⟨tail, htail⟩ := List.head?_eq_some_iff.mp hclosed
      rw [← readMembers_skipSpace, htail, readMembers_close] at hread
      cases hread
    rw [List.cons_append, List.append_assoc, List.singleton_append, readValue_brace hopen, hread,
      Option.map_some]

end Reads

/-- Texts with commas between them. -/
def commas : List (List Char) → List Char
  | [] => []
  | [text] => text
  | text :: texts => text ++ ',' :: commas texts

/-- A comma stands between the first text and the others. -/
theorem commas_cons_cons (text text' : List Char) (texts : List (List Char)) :
    commas (text :: text' :: texts) = text ++ ',' :: commas (text' :: texts) :=
  rfl

/-- The text is a member: blanks, its name, a colon and its value. -/
def IsMember (cs : List Char) (member : Option String × Json) : Prop :=
  ∃ blanks name text, Blank blanks ∧ member.1 = some name ∧ Reads text member.2 ∧
    cs = blanks ++ writeText name ++ ':' :: text

/-- Blanks and what stands behind a value are no part of a number. -/
theorem stops_blanks {blanks : List Char} (h : Blank blanks) {c : Char}
    (hc : isNumberChar c = false)
    (rest : List Char) : Stops isNumberChar (blanks ++ c :: rest) := by
  cases blanks with
  | nil => exact (stops_cons ..).mpr hc
  | cons b blanks =>
    have hb := h b List.mem_cons_self
    simp only [isSpace, Bool.or_eq_true, beq_iff_eq] at hb
    refine (stops_cons ..).mpr ?_
    rcases hb with ((rfl | rfl) | rfl) | rfl <;> rfl

/-- One item is read, with blanks behind it. -/
theorem ReadsItems.last {cs blanks : List Char} {item : Json} (h : Reads cs item)
    (hblanks : Blank blanks) : ReadsItems (cs ++ blanks) [item] := by
  intro fuel rest hfuel
  obtain ⟨fuel, rfl⟩ := Nat.exists_eq_add_one_of_ne_zero (Nat.ne_zero_of_lt hfuel)
  rw [List.length_append] at hfuel
  rw [readItems, List.append_assoc, h fuel _ (by omega) (stops_blanks hblanks rfl rest)]
  dsimp only
  rw [skipSpace_append hblanks]
  rfl

/-- An item in front of others is read, with a comma between them. -/
theorem ReadsItems.cons {cs cs' : List Char} {item : Json} {items : List Json} (h : Reads cs item)
    (hs : ReadsItems cs' items) : ReadsItems (cs ++ ',' :: cs') (item :: items) := by
  intro fuel rest hfuel
  obtain ⟨fuel, rfl⟩ := Nat.exists_eq_add_one_of_ne_zero (Nat.ne_zero_of_lt hfuel)
  rw [List.length_append, List.length_cons] at hfuel
  have hstops : Stops isNumberChar (',' :: (cs' ++ ']' :: rest)) := (stops_cons ..).mpr rfl
  rw [readItems, List.append_assoc, List.cons_append, h fuel _ (by omega) hstops]
  show (readItems fuel (cs' ++ ']' :: rest)).map _ = _
  rw [hs fuel rest (by omega), Option.map_some]

/-- A member is read off, and what stands behind it decides how the members go on. -/
theorem readMembers_member {cs : List Char} {member : Option String × Json} (h : IsMember cs member)
    {fuel : Nat} (hfuel : cs.length ≤ fuel) {rest : List Char} (hrest : Stops isNumberChar rest) :
    (∀ left, skipSpace rest = '\x7d' :: left →
      readMembers (fuel + 1) (cs ++ rest) = some ([member], left)) ∧
    ∀ left, skipSpace rest = ',' :: left → readMembers (fuel + 1) (cs ++ rest) =
      (readMembers fuel left).map fun found => (member :: found.1, found.2) := by
  obtain ⟨blanks, name, text, hblanks, hname, hvalue, rfl⟩ := h
  obtain ⟨name', value⟩ := member
  dsimp only at hname hvalue
  subst hname
  simp only [List.length_append, List.length_cons] at hfuel
  have hread := hvalue fuel rest (by omega) hrest
  have hopen : skipSpace (blanks ++ writeText name ++ ':' :: text ++ rest) =
      '"' :: (name.toList.flatMap escapeChar ++ '"' :: ':' :: (text ++ rest)) := by
    rw [List.append_assoc, List.append_assoc, skipSpace_append hblanks, writeText]
    simp only [List.cons_append, List.append_assoc, List.nil_append]
    rfl
  have hcolon : skipSpace (':' :: (text ++ rest)) = ':' :: (text ++ rest) := rfl
  constructor <;> intro left hleft <;>
    simp only [readMembers, hopen, readString_writeText, hcolon, hread, hleft]

/-- One member is read, with blanks behind it. -/
theorem ReadsMembers.last {cs blanks : List Char} {member : Option String × Json}
    (h : IsMember cs member) (hblanks : Blank blanks) : ReadsMembers (cs ++ blanks) [member] := by
  intro fuel rest hfuel
  obtain ⟨fuel, rfl⟩ := Nat.exists_eq_add_one_of_ne_zero (Nat.ne_zero_of_lt hfuel)
  rw [List.length_append] at hfuel
  rw [List.append_assoc]
  have hstops : Stops isNumberChar (blanks ++ '\x7d' :: rest) := stops_blanks hblanks rfl rest
  exact (readMembers_member h (by omega) hstops).1 rest (skipSpace_append hblanks _)

/-- A member in front of others is read, with a comma between them. -/
theorem ReadsMembers.cons {cs cs' : List Char} {member : Option String × Json}
    {members : List (Option String × Json)} (h : IsMember cs member)
    (hs : ReadsMembers cs' members) : ReadsMembers (cs ++ ',' :: cs') (member :: members) := by
  intro fuel rest hfuel
  obtain ⟨fuel, rfl⟩ := Nat.exists_eq_add_one_of_ne_zero (Nat.ne_zero_of_lt hfuel)
  rw [List.length_append, List.length_cons] at hfuel
  have hstops : Stops isNumberChar (',' :: (cs' ++ '\x7d' :: rest)) := (stops_cons ..).mpr rfl
  rw [List.append_assoc, List.cons_append, (readMembers_member h (by omega) hstops).2 _ rfl,
    hs fuel rest (by omega), Option.map_some]

/-- Items with commas between them, and blanks behind the last one. -/
theorem ReadsItems.commas {text : Json → List Char} {items : List Json}
    (h : ∀ item ∈ items, Reads (text item) item) (hne : items ≠ []) {blanks : List Char}
    (hblanks : Blank blanks) : ReadsItems (commas (items.map text) ++ blanks) items := by
  induction items with
  | nil => exact absurd rfl hne
  | cons item items ih =>
    obtain ⟨hitem, hitems⟩ := List.forall_mem_cons.mp h
    cases items with
    | nil => exact .last hitem hblanks
    | cons item' items =>
      have hrest := ih hitems (List.cons_ne_nil _ _)
      rw [List.map_cons] at hrest ⊢
      rw [List.map_cons, commas_cons_cons, List.append_assoc, List.cons_append]
      exact .cons hitem hrest

/-- Members with commas between them, and blanks behind the last one. -/
theorem ReadsMembers.commas {text : Option String × Json → List Char}
    {members : List (Option String × Json)} (h : ∀ member ∈ members, IsMember (text member) member)
    (hne : members ≠ []) {blanks : List Char} (hblanks : Blank blanks) :
    ReadsMembers (commas (members.map text) ++ blanks) members := by
  induction members with
  | nil => exact absurd rfl hne
  | cons member members ih =>
    obtain ⟨hmember, hmembers⟩ := List.forall_mem_cons.mp h
    cases members with
    | nil => exact .last hmember hblanks
    | cons member' members =>
      have hrest := ih hmembers (List.cons_ne_nil _ _)
      rw [List.map_cons] at hrest ⊢
      rw [List.map_cons, commas_cons_cons, List.append_assoc, List.cons_append]
      exact .cons hmember hrest

/-! ## The two layouts -/

/-- The value holds integers alone for numbers, and strings that denote a text. -/
inductive Plain : Json → Prop
  | null : Plain .null
  | bool (b : Bool) : Plain (.bool b)
  | int (n : Int) : Plain (.int n)
  | string (s : String) : Plain (.string (some s))
  | array {items : List Json} (h : ∀ item ∈ items, Plain item) : Plain (.array items)
  | object {members : List (Option String × Json)} (hname : ∀ member ∈ members, member.1.isSome)
      (h : ∀ member ∈ members, Plain member.2) : Plain (.object members)

/-- A writer that puts commas between the texts of its items. -/
theorem eq_commas {α : Type} {write : List α → List Char} {text : α → List Char}
    (hnil : write [] = []) (hone : ∀ a, write [a] = text a)
    (hcons : ∀ a b rest, write (a :: b :: rest) = text a ++ ',' :: write (b :: rest))
    (items : List α) : write items = commas (items.map text) := by
  induction items with
  | nil => exact hnil
  | cons a items ih =>
    cases items with
    | nil => exact hone a
    | cons b items =>
      rw [hcons, ih]
      rfl

/-- The items of an array on one line are texts with commas between them. -/
theorem compactItems_eq (items : List Json) :
    compactItems items = commas (items.map compactChars) :=
  eq_commas rfl (fun _ => rfl) (fun _ _ _ => rfl) items

/-- So are the members of an object on one line. -/
theorem compactMembers_eq (members : List (Option String × Json)) :
    compactMembers members =
      commas (members.map fun member => writeString member.1 ++ ':' :: compactChars member.2) :=
  eq_commas rfl (fun _ => rfl) (fun _ _ _ => rfl) members

/-- The items of an array on lines of their own are texts with commas between them. -/
theorem prettyItems_eq (depth : Nat) (items : List Json) :
    prettyItems depth items =
      commas (items.map fun item => newLine depth ++ prettyChars depth item) :=
  eq_commas rfl (fun _ => rfl) (fun _ _ _ => rfl) items

/-- So are the members of an object on lines of their own. -/
theorem prettyMembers_eq (depth : Nat) (members : List (Option String × Json)) :
    prettyMembers depth members = commas (members.map fun member =>
      newLine depth ++ writeString member.1 ++ ':' :: ' ' :: prettyChars depth member.2) :=
  eq_commas rfl (fun _ => rfl) (fun _ _ _ => rfl) members

/-- Nothing is blank. -/
theorem blank_nil : Blank [] := fun _ h => absurd h List.not_mem_nil

/-- A space is blank. -/
theorem blank_space : Blank [' '] := fun _ h => by rw [List.mem_singleton.mp h]; rfl

/-- A new line with its indentation is blank. -/
theorem blank_newLine (depth : Nat) : Blank (newLine depth) := by
  intro c hc
  rcases List.mem_cons.mp hc with rfl | hc
  · rfl
  · rw [List.eq_of_mem_replicate hc]
    rfl

namespace Plain

/-- A value is read back from its text without blanks. -/
theorem reads_compact {j : Json} (h : Plain j) : Reads (compactChars j) j := by
  induction h with
  | null => exact .null
  | bool b => exact .bool b
  | int n => exact .int n
  | string s => exact .string s
  | @array items _ ih =>
    rw [compactChars, compactItems_eq]
    cases items with
    | nil => exact .emptyArray
    | cons item items =>
      have hitems := ReadsItems.commas ih (List.cons_ne_nil _ _) blank_nil
      rw [List.append_nil] at hitems
      exact .array hitems
  | @object members hname _ ih =>
    rw [compactChars, compactMembers_eq]
    cases members with
    | nil => exact .emptyObject
    | cons member members =>
      have hmember :
          ∀ m ∈ member :: members, IsMember (writeString m.1 ++ ':' :: compactChars m.2) m := by
        intro m hm
        obtain ⟨name, hname⟩ := Option.isSome_iff_exists.mp (hname m hm)
        exact ⟨[], name, _, blank_nil, hname, ih m hm, by rw [hname]; rfl⟩
      have hmembers := ReadsMembers.commas hmember (List.cons_ne_nil _ _) blank_nil
      rw [List.append_nil] at hmembers
      exact .object hmembers

/-- A value is read back from its text on several lines, at any depth. -/
theorem reads_pretty {j : Json} (h : Plain j) (depth : Nat) : Reads (prettyChars depth j) j := by
  induction h generalizing depth with
  | null => exact .null
  | bool b => exact .bool b
  | int n => exact .int n
  | string s => exact .string s
  | @array items _ ih =>
    cases items with
    | nil => exact .emptyArray
    | cons item items =>
      rw [prettyChars, prettyItems_eq]
      have hitem := fun i hi => (ih i hi (depth + 1)).blanks (blank_newLine (depth + 1))
      exact .array (.commas hitem (List.cons_ne_nil _ _) (blank_newLine depth))
  | @object members hname _ ih =>
    cases members with
    | nil => exact .emptyObject
    | cons member members =>
      rw [prettyChars, prettyMembers_eq]
      have hmember : ∀ m ∈ member :: members, IsMember
          (newLine (depth + 1) ++ writeString m.1 ++ ':' :: ' ' :: prettyChars (depth + 1) m.2)
            m := by
        intro m hm
        obtain ⟨name, hname⟩ := Option.isSome_iff_exists.mp (hname m hm)
        have hvalue := (ih m hm (depth + 1)).blanks blank_space
        exact ⟨newLine (depth + 1), name, _, blank_newLine _, hname, hvalue, by rw [hname]; rfl⟩
      exact .object (.commas hmember (List.cons_ne_nil _ _) (blank_newLine depth))

end Plain

/-- A text that is read is a document. -/
theorem Reads.parseChars? {cs : List Char} {j : Json} (h : Reads cs j) :
    parseChars? cs = some j := by
  have hread := h (2 * cs.length + 2) [] (by omega) (stops_nil _)
  rw [List.append_nil] at hread
  rw [Json.parseChars?, hread]
  rfl

/-- What is written without blanks denotes the value. -/
theorem parse?_compact {j : Json} (h : Plain j) : parse? j.compact = some j := by
  rw [parse?, compact, String.toList_ofList]
  exact h.reads_compact.parseChars?

/-- What is written on several lines denotes the value. -/
theorem parse?_pretty {j : Json} (h : Plain j) : parse? j.pretty = some j := by
  rw [parse?, pretty, String.toList_ofList]
  exact (h.reads_pretty 0).parseChars?

end StackMachine.Json
