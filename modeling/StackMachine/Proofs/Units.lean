import Mathlib.Data.List.Basic
import StackMachine.Proofs.Literal

/-!
# The units of an escaped text

A body of a literal is a sequence of units: a character that stands for itself, or an escape with
its digits (`IsUnit`). Decoding accepts exactly the texts that split into units
(`unescape_eq_ok_iff`).

The scanner that finds the end of a literal knows no more of this than that a backslash takes the
next character in. It is right all the same: what else belongs to an escape is digits, which it
passes over (`scan_unit_append`), so it stops at the first unit that is a bare quote
(`scan_append_quote_iff`). What a string is read off is therefore a quote, a body without bare
quotes, and a quote (`readString_eq_some_iff`).
-/

namespace StackMachine

namespace Escape

/-- A unit of an escaped text: how it is written, and the character that it stands for. -/
inductive IsUnit : List Char → Char → Prop
  /-- Any character but a backslash stands for itself. -/
  | plain {c : Char} : c ≠ '\\' → IsUnit [c] c
  /-- An escape of one letter. -/
  | simple {name c : Char} : simple? name = some c → IsUnit ['\\', name] c
  /-- An escape by the hexadecimal digits of a scalar value, as many as its letter says. -/
  | hex {name c : Char} {digits : List Char} : hexWidth? name = some digits.length →
      (∀ d ∈ digits, isDigitOf 16 d = true) → scalar? (valueOf 16 digits) = some c →
      IsUnit ('\\' :: name :: digits) c
  /-- An escape by three octal digits of a byte. -/
  | octal {digits : List Char} : digits.length = 3 → (∀ d ∈ digits, isDigitOf 8 d = true) →
      valueOf 8 digits ≤ 0xFF → IsUnit ('\\' :: digits) (Char.ofNat (valueOf 8 digits))

/-- The body is written by these units one after the other, and denotes the characters that they
stand for. -/
structure Splits (units : List (List Char × Char)) (body text : List Char) : Prop where
  isUnit : ∀ u ∈ units, IsUnit u.1 u.2
  body : units.flatMap (·.1) = body
  text : units.map (·.2) = text

/-- The empty body is split into no units. -/
theorem splits_nil : Splits [] [] [] := ⟨nofun, rfl, rfl⟩

/-- A unit in front of a body that is split. -/
theorem Splits.cons {unit body text : List Char} {c : Char} {units : List (List Char × Char)}
    (hunit : IsUnit unit c) (h : Splits units body text) :
    Splits ((unit, c) :: units) (unit ++ body) (c :: text) where
  isUnit := List.forall_mem_cons.mpr ⟨hunit, h.isUnit⟩
  body := by rw [List.flatMap_cons, h.body]
  text := by rw [List.map_cons, h.text]

/-! ## Decoding -/

/-- A letter that takes digits stands for no character. -/
theorem simple?_of_hexWidth? {name : Char} {count : Nat} (h : hexWidth? name = some count) :
    simple? name = none := by
  unfold hexWidth? at h
  split at h
  · rfl
  · rfl
  · rfl
  · cases h

/-- An octal digit is no letter of an escape. -/
theorem letters_of_isDigitOf {c : Char} (h : isDigitOf 8 c = true) :
    simple? c = none ∧ hexWidth? c = none := by
  constructor
  · unfold simple?
    split
    case h_11 => rfl
    all_goals exact absurd h (by decide)
  · unfold hexWidth?
    split
    case h_4 => rfl
    all_goals exact absurd h (by decide)

/-- The escape of a unit is read whole, and nothing of what follows it. -/
theorem escape_append_of_isUnit {unit : List Char} {c : Char} (h : IsUnit ('\\' :: unit) c)
    (rest : List Char) : escape (unit ++ rest) = .ok (c, unit.length) := by
  cases h with
  | plain hc => exact absurd rfl hc
  | simple hname => simp only [List.singleton_append, escape, hname, List.length_singleton]
  | @hex name _ digits hwidth hdigits hscalar =>
    have hchar : hexChar digits.length digits = .ok c := by
      rw [hexChar, if_pos ⟨rfl, List.all_eq_true.mpr hdigits⟩, hscalar]
    rw [List.cons_append]
    simp only [escape, simple?_of_hexWidth? hwidth, hwidth, List.take_left, hchar, Except.map,
      List.length_cons]
  | octal hlength hdigits hvalue =>
    obtain ⟨d₁, d₂, d₃, rfl⟩ := List.length_eq_three.mp hlength
    obtain ⟨hsimple, hwidth⟩ := letters_of_isDigitOf (hdigits d₁ (by simp))
    have hchar : octalChar [d₁, d₂, d₃] = .ok (Char.ofNat (valueOf 8 [d₁, d₂, d₃])) := by
      rw [octalChar, if_pos ⟨rfl, List.all_eq_true.mpr hdigits⟩, if_pos hvalue]
    have htake : ([d₂, d₃] ++ rest).take 2 = [d₂, d₃] := rfl
    show escape (d₁ :: ([d₂, d₃] ++ rest)) = _
    simp only [escape, hsimple, hwidth, hdigits d₁ (by simp), if_true, htake, hchar, Except.map,
      List.length_cons, List.length_nil]

/-- A unit is a character by itself or begins with a backslash. -/
theorem IsUnit.cases_head {unit : List Char} {c : Char} (h : IsUnit unit c) :
    (unit = [c] ∧ c ≠ '\\') ∨ ∃ escaped, unit = '\\' :: escaped := by
  cases h with
  | plain hc => exact .inl ⟨rfl, hc⟩
  | simple _ => exact .inr ⟨_, rfl⟩
  | hex _ _ _ => exact .inr ⟨_, rfl⟩
  | octal _ _ _ => exact .inr ⟨_, rfl⟩

/-- A digit is neither a quote nor a backslash. -/
theorem plain_of_isDigitOf {base : Nat} {d : Char} (h : isDigitOf base d = true) :
    d ≠ '"' ∧ d ≠ '\\' := by
  constructor
  · rintro rfl
    cases h
  · rintro rfl
    cases h

/-- An escape is a backslash with the character behind it, which does not end the line, and
digits. -/
theorem IsUnit.exists_eq_cons {escaped : List Char} {c : Char} (h : IsUnit ('\\' :: escaped) c) :
    ∃ name digits, escaped = name :: digits ∧ name ≠ '\n' ∧ ∀ d ∈ digits, d ≠ '"' ∧ d ≠ '\\' := by
  cases h with
  | plain hc => exact absurd rfl hc
  | simple hname =>
    refine ⟨_, [], rfl, ?_, nofun⟩
    rintro rfl
    cases hname
  | hex hwidth hdigits _ =>
    refine ⟨_, _, rfl, ?_, fun d hd => plain_of_isDigitOf (hdigits d hd)⟩
    rintro rfl
    cases hwidth
  | octal hlength hdigits _ =>
    obtain ⟨name, digits, rfl⟩ :=
      List.exists_cons_of_ne_nil (List.ne_nil_of_length_eq_add_one hlength)
    obtain ⟨hname, hdigits⟩ := List.forall_mem_cons.mp hdigits
    refine ⟨name, digits, rfl, ?_, fun d hd => plain_of_isDigitOf (hdigits d hd)⟩
    rintro rfl
    cases hname

/-- A unit is decoded to the character that it stands for. -/
theorem unescape_unit_append {unit : List Char} {c : Char} (h : IsUnit unit c) (rest : List Char) :
    unescape (unit ++ rest) = (unescape rest).map (c :: ·) := by
  obtain ⟨rfl, hc⟩ | ⟨escaped, rfl⟩ := h.cases_head
  · exact unescape_cons_of_ne hc rest
  · rw [List.cons_append, unescape_backslash, escape_append_of_isUnit h]
    dsimp only
    rw [List.drop_left]

/-- What a hexadecimal escape that is accepted is. -/
theorem hexChar_eq_ok {count : Nat} {digits : List Char} {c : Char}
    (h : hexChar count digits = .ok c) : digits.length = count ∧
      (∀ d ∈ digits, isDigitOf 16 d = true) ∧ scalar? (valueOf 16 digits) = some c := by
  unfold hexChar at h
  split at h
  · rename_i hdigits
    split at h
    · rename_i hscalar
      cases h
      exact ⟨hdigits.1, List.all_eq_true.mp hdigits.2, hscalar⟩
    · cases h
  · cases h

/-- What an octal escape that is accepted is. -/
theorem octalChar_eq_ok {digits : List Char} {c : Char} (h : octalChar digits = .ok c) :
    digits.length = 3 ∧ (∀ d ∈ digits, isDigitOf 8 d = true) ∧ valueOf 8 digits ≤ 0xFF ∧
      c = Char.ofNat (valueOf 8 digits) := by
  unfold octalChar at h
  split at h
  · rename_i hdigits
    split at h
    · rename_i hvalue
      cases h
      exact ⟨hdigits.1, List.all_eq_true.mp hdigits.2, hvalue, rfl⟩
    · cases h
  · cases h

/-- What an escape takes in is a unit. -/
theorem isUnit_of_escape {cs : List Char} {c : Char} {used : Nat} (h : escape cs = .ok (c, used)) :
    IsUnit ('\\' :: cs.take used) c := by
  cases cs with
  | nil => cases h
  | cons name cs =>
    rw [escape] at h
    cases hsimple : simple? name with
    | some d =>
      rw [hsimple] at h
      cases h
      exact .simple hsimple
    | none =>
      rw [hsimple] at h
      cases hwidth : hexWidth? name with
      | some count =>
        rw [hwidth] at h
        obtain ⟨d, hchar, hpair⟩ := map_eq_ok_iff.mp h
        cases hpair
        obtain ⟨hlength, hdigits, hscalar⟩ := hexChar_eq_ok hchar
        exact .hex (by rw [hlength, hwidth]) hdigits hscalar
      | none =>
        rw [hwidth] at h
        dsimp only at h
        split at h
        · obtain ⟨d, hchar, hpair⟩ := map_eq_ok_iff.mp h
          cases hpair
          obtain ⟨hlength, hdigits, hvalue, rfl⟩ := octalChar_eq_ok hchar
          exact .octal hlength hdigits hvalue
        · cases h

/-- A body is decoded exactly if it splits into units. -/
theorem unescape_eq_ok_iff {body text : List Char} :
    unescape body = .ok text ↔ ∃ units, Splits units body text := by
  constructor
  · intro h
    induction hn : body.length using Nat.strongRecOn generalizing body text with
    | ind n ih =>
      subst hn
      cases body with
      | nil =>
        cases h
        exact ⟨[], splits_nil⟩
      | cons c cs =>
        by_cases hc : c = '\\'
        · subst hc
          rw [unescape_backslash] at h
          split at h
          · cases h
          · rename_i d used hescape
            obtain ⟨text, hrest, rfl⟩ := map_eq_ok_iff.mp h
            have hshort : (cs.drop used).length < ('\\' :: cs).length := by
              rw [List.length_drop, List.length_cons]
              omega
            obtain ⟨units, hsplits⟩ := ih _ hshort hrest rfl
            have hunit := hsplits.cons (isUnit_of_escape hescape)
            rw [List.cons_append, List.take_append_drop] at hunit
            exact ⟨_, hunit⟩
        · rw [unescape_cons_of_ne hc] at h
          obtain ⟨text, hrest, rfl⟩ := map_eq_ok_iff.mp h
          obtain ⟨units, hsplits⟩ := ih _ (Nat.lt_succ_self _) hrest rfl
          exact ⟨_, hsplits.cons (.plain hc)⟩
  · rintro ⟨units, hunits, rfl, rfl⟩
    induction units with
    | nil => rfl
    | cons u units ih =>
      obtain ⟨hunit, hunits⟩ := List.forall_mem_cons.mp hunits
      rw [List.flatMap_cons, unescape_unit_append hunit, ih hunits, Except.map, List.map_cons]

end Escape

/-! ## Scanning -/

namespace Quoted

open Escape

/-- The scanner passes over characters that are neither quotes nor backslashes. -/
theorem scan_append_of_plain {run : List Char} (h : ∀ c ∈ run, c ≠ '"' ∧ c ≠ '\\')
    (rest : List Char) :
    scan (run ++ rest) = (scan rest).map fun (body, tail) => (run ++ body, tail) := by
  induction run with
  | nil => simp
  | cons c run ih =>
    obtain ⟨⟨hq, hb⟩, hrun⟩ := List.forall_mem_cons.mp h
    rw [List.cons_append, scan_cons_of_ne hq hb, ih hrun, Option.map_map]
    rfl

/-- The scanner passes over a unit that is no bare quote. -/
theorem scan_unit_append {unit : List Char} {c : Char} (h : IsUnit unit c) (hquote : unit ≠ ['"'])
    (rest : List Char) :
    scan (unit ++ rest) = (scan rest).map fun (body, tail) => (unit ++ body, tail) := by
  obtain ⟨rfl, hb⟩ | ⟨escaped, rfl⟩ := h.cases_head
  · have hq : c ≠ '"' := by
      rintro rfl
      exact hquote rfl
    exact scan_cons_of_ne hq hb rest
  · obtain ⟨name, digits, rfl, hname, hdigits⟩ := h.exists_eq_cons
    rw [List.cons_append, List.cons_append, scan, if_neg hname, scan_append_of_plain hdigits,
      Option.map_map]
    rfl

/-- A literal's body without bare quotes, and the text that it denotes. -/
def Denotes (body text : List Char) : Prop :=
  ∃ units, Splits units body text ∧ ∀ u ∈ units, u.1 ≠ ['"']

/-- The scanner stops at the first bare quote. -/
theorem scan_append_quote_iff {units : List (List Char × Char)} {body text : List Char}
    (h : Splits units body text) (rest : List Char) :
    scan (body ++ '"' :: rest) = some (body, rest) ↔ ∀ u ∈ units, u.1 ≠ ['"'] := by
  induction units generalizing body text with
  | nil =>
    obtain ⟨-, rfl, -⟩ := h
    exact ⟨fun _ => nofun, fun _ => rfl⟩
  | cons u units ih =>
    obtain ⟨hunits, rfl, rfl⟩ := h
    obtain ⟨hunit, hunits⟩ := List.forall_mem_cons.mp hunits
    rw [List.flatMap_cons, List.forall_mem_cons]
    by_cases hquote : u.1 = ['"']
    · rw [hquote]
      constructor
      · intro hscan
        cases hscan
      · intro hboth
        exact absurd rfl hboth.1
    · rw [List.append_assoc, scan_unit_append hunit hquote, ← ih ⟨hunits, rfl, rfl⟩,
        Option.map_eq_some_iff]
      constructor
      · rintro ⟨⟨body, tail⟩, hscan, hpair⟩
        obtain ⟨hbody, rfl⟩ := Prod.mk.inj hpair
        rw [List.append_cancel_left hbody] at hscan
        exact ⟨hquote, hscan⟩
      · rintro ⟨-, hscan⟩
        exact ⟨_, hscan, rfl⟩

/-- What a text is written as denotes that text. -/
theorem denotes_quoteBody (cs : List Char) : Denotes (quoteBody cs) cs := by
  obtain ⟨units, hsplits⟩ := unescape_eq_ok_iff.mp (unescape_quoteBody cs)
  exact ⟨units, hsplits, (scan_append_quote_iff hsplits []).mp (scan_quoteBody_append cs [])⟩

end Quoted

/-! ## Reading -/

namespace Assembly

open Text

/-- A string is read off blanks and a literal, whatever follows it, and the count is theirs. -/
theorem readString_eq_some_iff {rest : List Char} {s : String} {k : Nat} :
    readString rest = .ok (some (s, k)) ↔
      ∃ blanks body tail, rest = blanks ++ '"' :: (body ++ '"' :: tail) ∧
        (∀ c ∈ blanks, isBlank c = true) ∧ Quoted.Denotes body s.toList ∧
        k = utf8Length (blanks ++ '"' :: (body ++ ['"'])) := by
  have hfront : ∀ cs, Stops isBlank ('"' :: cs) := fun _ => (stops_cons ..).mpr (by decide)
  constructor
  · intro h
    unfold readString at h
    split at h
    · rename_i cs hskip
      split at h
      · cases h
      · rename_i body tail' hscan
        split at h
        · rename_i text hunescape
          cases h
          obtain ⟨blanks, rfl, hblanks, -⟩ := skipBlanks_eq_iff.mp hskip
          obtain rfl := Quoted.append_eq_of_scan hscan
          obtain ⟨units, hsplits⟩ := Escape.unescape_eq_ok_iff.mp hunescape
          have hquotes := (Quoted.scan_append_quote_iff hsplits tail').mp hscan
          rw [String.toList_ofList, takeWhile_append_of_stops hblanks (hfront _)]
          exact ⟨blanks, body, tail', rfl, hblanks, ⟨units, hsplits, hquotes⟩, rfl⟩
        · cases h
    · cases h
  · rintro ⟨blanks, body, tail, rfl, hblanks, ⟨units, hsplits, hquotes⟩, rfl⟩
    have hskip := skipBlanks_append hblanks (hfront (body ++ '"' :: tail))
    have hscan := (Quoted.scan_append_quote_iff hsplits tail).mpr hquotes
    have hunescape := Escape.unescape_eq_ok_iff.mpr ⟨units, hsplits⟩
    simp only [readString, hskip, hscan, hunescape, String.ofList_toList,
      takeWhile_append_of_stops hblanks (hfront _)]

/-- Reading a string fails only where a literal is found whose body has a fault. -/
theorem exists_scan_of_readString {rest : List Char} {fault : LineFault}
    (h : readString rest = .error fault) :
    ∃ cs body tail escape, Quoted.scan cs = some (body, tail) ∧
      Escape.unescape body = .error escape ∧ fault = .escape escape := by
  unfold readString at h
  split at h
  · rename_i cs _
    split at h
    · cases h
    · rename_i body tail hscan
      split at h
      · cases h
      · rename_i escape hescape
        cases h
        exact ⟨cs, body, tail, escape, hscan, hescape, rfl⟩
  · cases h

end Assembly

end StackMachine
