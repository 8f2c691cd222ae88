import Mathlib.Data.List.Forall2
import Mathlib.Data.Nat.Digits.Defs
import StackMachine.Proofs.Units

/-!
# The escape language

What a body of a literal may consist of, said without the decoder: a character that is no backslash
stands for itself, ten escapes of one letter stand for the characters of a table, and a code in
hexadecimal or octal digits stands for the character that has it (`StandsFor`). The value of digits
is `Nat.ofDigits`, and that a code is a scalar value is that some character has it. These are the
units that the decoder knows (`isUnit_iff_standsFor`).

A unit cannot go on in another way (`IsUnit.append_inj`), so a body splits into units in one way
only (`Splits.unique`). A body that is decoded therefore ends with a unit, and what is put behind it
is decoded by itself (`unescape_append`). `unquote_iff_units` says all of this of the strings.
-/

namespace StackMachine

namespace Escape

/-! ## Digits and codes -/

/-- The character is the digit of this value in a base up to sixteen, in either case. -/
def IsDigit (base : Nat) (c : Char) (k : Nat) : Prop :=
  k < base ∧ (c = Nat.digitChar k ∨ c = (Nat.digitChar k).toUpper)

/-- The digits write the number in the base, the most significant one first. -/
def Writes (base : Nat) (digits : List Char) (n : Nat) : Prop :=
  ∃ ks, List.Forall₂ (IsDigit base) digits ks ∧ n = Nat.ofDigits base ks.reverse

/-- The digits of a number below sixteen have that value, in both cases. -/
theorem digitValue?_digitChar {k : Nat} (h : k < 16) :
    digitValue? (Nat.digitChar k) = some k ∧ digitValue? (Nat.digitChar k).toUpper = some k := by
  revert k
  decide

/-- A digit is an ASCII character. -/
theorem toNat_lt_of_digitValue? {c : Char} {k : Nat} (h : digitValue? c = some k) :
    c.toNat < 128 := by
  have below {high : Char} (hc : c ≤ high) (hhigh : high.toNat < 128) : c.toNat < 128 :=
    Nat.lt_of_le_of_lt (UInt32.le_iff_toNat_le.mp hc) hhigh
  unfold digitValue? at h
  split at h
  · rename_i hc
    exact below hc.2 (by decide)
  · split at h
    · rename_i hc
      exact below hc.2 (by decide)
    · split at h
      · rename_i hc
        exact below hc.2 (by decide)
      · cases h

/-- A character has a value exactly if it is the digit for it. -/
theorem digitValue?_eq_some_iff {c : Char} {k : Nat} : digitValue? c = some k ↔ IsDigit 16 c k := by
  constructor
  · intro h
    have hascii : ∀ n < 128, ∀ k ∈ digitValue? (Char.ofNat n),
        k < 16 ∧ (Char.ofNat n = Nat.digitChar k ∨ Char.ofNat n = (Nat.digitChar k).toUpper) := by
      decide
    have hc := hascii c.toNat (toNat_lt_of_digitValue? h) k
    rw [Char.ofNat_toNat] at hc
    exact hc h
  · rintro ⟨hk, rfl | rfl⟩
    · exact (digitValue?_digitChar hk).1
    · exact (digitValue?_digitChar hk).2

/-- The characters that the decoder takes for digits, and the values that it gives them. -/
theorem isDigit_iff {base : Nat} (hbase : base ≤ 16) {c : Char} {k : Nat} :
    IsDigit base c k ↔ isDigitOf base c = true ∧ (digitValue? c).getD 0 = k := by
  constructor
  · rintro ⟨hk, hc⟩
    have hvalue : digitValue? c = some k := digitValue?_eq_some_iff.mpr ⟨by omega, hc⟩
    rw [isDigitOf, hvalue]
    exact ⟨decide_eq_true hk, rfl⟩
  · rintro ⟨hdigit, hvalue⟩
    obtain ⟨k', hk', hlt⟩ := (Option.any_eq_true ..).mp hdigit
    rw [hk', Option.getD_some] at hvalue
    subst hvalue
    exact ⟨of_decide_eq_true hlt, (digitValue?_eq_some_iff.mp hk').2⟩

/-- The value that the decoder gives digits is the number that they write. -/
theorem writes_iff {base : Nat} (hbase : base ≤ 16) {digits : List Char} {n : Nat} :
    Writes base digits n ↔ (∀ d ∈ digits, isDigitOf base d = true) ∧ valueOf base digits = n := by
  have hks {ks : List Nat} : List.Forall₂ (IsDigit base) digits ks ↔
      (∀ d ∈ digits, isDigitOf base d = true) ∧
        digits.map (fun d => (digitValue? d).getD 0) = ks := by
    have hdigit : IsDigit base =
        fun d k => isDigitOf base d = true ∧ (digitValue? d).getD 0 = k := by
      ext d k
      exact isDigit_iff hbase
    rw [hdigit, List.forall₂_and_left, ← List.forall₂_map_left_iff (R := (· = ·)),
      List.forall₂_eq_eq_eq]
  have hvalue : valueOf base digits =
      Nat.ofDigits base (digits.map fun d => (digitValue? d).getD 0).reverse := by
    rw [Nat.ofDigits_eq_foldr, List.foldr_reverse, List.foldl_map]
    simp only [valueOf, Nat.add_comm, Nat.cast_id]
  constructor
  · rintro ⟨ks, hdigits, rfl⟩
    obtain ⟨hall, rfl⟩ := hks.mp hdigits
    exact ⟨hall, hvalue⟩
  · rintro ⟨hdigits, rfl⟩
    exact ⟨_, hks.mpr ⟨hdigits, rfl⟩, hvalue⟩

/-- A code point is that of its character. -/
theorem toNat_ofNat {code : Nat} (h : code.isValidChar) : (Char.ofNat code).toNat = code := by
  rw [Char.ofNat, dif_pos h]
  rfl

/-- The codes of characters are the scalar values. -/
theorem scalar?_eq_some_iff {code : Nat} {c : Char} : scalar? code = some c ↔ c.toNat = code := by
  unfold scalar?
  constructor
  · intro h
    split at h
    · rename_i hvalid
      cases h
      exact toNat_ofNat hvalid
    · cases h
  · rintro rfl
    rw [if_pos (show c.toNat.isValidChar from c.valid), Char.ofNat_toNat]

/-! ## The units -/

/-- The escapes of one letter, and the characters that they stand for. -/
def letters : List (Char × Char) :=
  [('a', '\x07'), ('b', '\x08'), ('f', '\x0c'), ('n', '\n'), ('r', '\r'), ('t', '\t'),
    ('v', '\x0b'), ('\\', '\\'), ('\x27', '\x27'), ('"', '"')]

/-- The letters that a code in hexadecimal digits stands behind, and the number of its digits. -/
def widths : List (Char × Nat) := [('x', 2), ('u', 4), ('U', 8)]

/-- A piece of a body stands for a character. -/
inductive StandsFor : List Char → Char → Prop
  /-- A character that is no backslash stands for itself. -/
  | plain {c : Char} : c ≠ '\\' → StandsFor [c] c
  /-- A letter behind a backslash. -/
  | letter {name c : Char} : (name, c) ∈ letters → StandsFor ['\\', name] c
  /-- The code of the character in as many hexadecimal digits as the letter says. -/
  | hex {name c : Char} {digits : List Char} : (name, digits.length) ∈ widths →
      Writes 16 digits c.toNat → StandsFor ('\\' :: name :: digits) c
  /-- The code of the character, up to 255, in three octal digits. -/
  | octal {c : Char} {digits : List Char} : digits.length = 3 → Writes 8 digits c.toNat →
      c.toNat ≤ 0xFF → StandsFor ('\\' :: digits) c

/-- A letter stands for a character exactly if the table of letters says so. -/
theorem simple?_eq_some_iff {name c : Char} : simple? name = some c ↔ (name, c) ∈ letters := by
  constructor
  · intro h
    unfold simple? at h
    split at h <;> cases h <;> decide
  · intro h
    simp only [letters, List.mem_cons, Prod.mk.injEq, List.not_mem_nil, or_false] at h
    rcases h with h | h | h | h | h | h | h | h | h | h <;> rw [h.1, h.2] <;> rfl

/-- A letter takes hexadecimal digits exactly if the table of widths says so. -/
theorem hexWidth?_eq_some_iff {name : Char} {count : Nat} :
    hexWidth? name = some count ↔ (name, count) ∈ widths := by
  constructor
  · intro h
    unfold hexWidth? at h
    split at h <;> cases h <;> decide
  · intro h
    simp only [widths, List.mem_cons, Prod.mk.injEq, List.not_mem_nil, or_false] at h
    rcases h with h | h | h <;> rw [h.1, h.2] <;> rfl

/-- The units that the decoder knows are the pieces that stand for a character. -/
theorem isUnit_iff_standsFor {unit : List Char} {c : Char} : IsUnit unit c ↔ StandsFor unit c := by
  constructor
  · intro h
    cases h with
    | plain hc => exact .plain hc
    | simple hname => exact .letter (simple?_eq_some_iff.mp hname)
    | hex hwidth hdigits hscalar =>
      have hcode := (scalar?_eq_some_iff.mp hscalar).symm
      exact .hex (hexWidth?_eq_some_iff.mp hwidth) ((writes_iff (by decide)).mpr ⟨hdigits, hcode⟩)
    | octal hlength hdigits hvalue =>
      have hcode := toNat_ofNat (.inl (Nat.lt_of_le_of_lt hvalue (by decide)))
      exact .octal hlength ((writes_iff (by decide)).mpr ⟨hdigits, hcode.symm⟩)
        (hcode.trans_le hvalue)
  · intro h
    cases h with
    | plain hc => exact .plain hc
    | letter hname => exact .simple (simple?_eq_some_iff.mpr hname)
    | hex hwidth hwrites =>
      obtain ⟨hdigits, hcode⟩ := (writes_iff (by decide)).mp hwrites
      exact .hex (hexWidth?_eq_some_iff.mpr hwidth) hdigits (scalar?_eq_some_iff.mpr hcode.symm)
    | octal hlength hwrites hbyte =>
      obtain ⟨hdigits, hcode⟩ := (writes_iff (by decide)).mp hwrites
      have hunit := IsUnit.octal hlength hdigits (hcode ▸ hbyte)
      rwa [hcode, Char.ofNat_toNat] at hunit

/-! ## The split into units -/

/-- Two units at the front of one text are the same: one escape is read off both texts, so both
units are as long as it is. -/
theorem IsUnit.append_inj {unit unit' rest rest' : List Char} {c c' : Char} (h : IsUnit unit c)
    (h' : IsUnit unit' c') (heq : unit ++ rest = unit' ++ rest') :
    unit = unit' ∧ c = c' ∧ rest = rest' := by
  obtain ⟨rfl, hc⟩ | ⟨escaped, rfl⟩ := h.cases_head
  · obtain ⟨rfl, -⟩ | ⟨escaped', rfl⟩ := h'.cases_head
    · cases heq
      exact ⟨rfl, rfl, rfl⟩
    · exact absurd (List.cons.inj heq).1 hc
  · obtain ⟨rfl, hc'⟩ | ⟨escaped', rfl⟩ := h'.cases_head
    · exact absurd (List.cons.inj heq).1.symm hc'
    · have htexts : escaped ++ rest = escaped' ++ rest' := (List.cons.inj heq).2
      have hread := escape_append_of_isUnit h rest
      rw [htexts, escape_append_of_isUnit h' rest'] at hread
      obtain ⟨hchar, hlength⟩ := Prod.mk.inj (Except.ok.inj hread)
      obtain ⟨rfl, rfl⟩ := List.append_inj htexts hlength.symm
      exact ⟨rfl, hchar.symm, rfl⟩

/-- Nothing is written by no unit only. -/
theorem Splits.eq_nil {units : List (List Char × Char)} {text : List Char}
    (h : Splits units [] text) : units = [] := by
  refine List.eq_nil_iff_forall_not_mem.mpr fun u hu => ?_
  have hnil : u.1 = [] := List.flatMap_eq_nil_iff.mp h.body u hu
  obtain ⟨hunit, -⟩ | ⟨escaped, hunit⟩ := (h.isUnit u hu).cases_head
  · cases hnil.symm.trans hunit
  · cases hnil.symm.trans hunit

/-- A body splits into units in one way only. -/
theorem Splits.unique {units units' : List (List Char × Char)} {body text text' : List Char}
    (h : Splits units body text) (h' : Splits units' body text') : units = units' := by
  induction units generalizing units' body text text' with
  | nil =>
    obtain ⟨-, rfl, -⟩ := h
    exact h'.eq_nil.symm
  | cons u units ih =>
    cases units' with
    | nil =>
      obtain ⟨-, rfl, -⟩ := h'
      exact h.eq_nil
    | cons u' units' =>
      obtain ⟨hunit, hunits⟩ := List.forall_mem_cons.mp h.isUnit
      obtain ⟨hunit', hunits'⟩ := List.forall_mem_cons.mp h'.isUnit
      have hbody := h.body.trans h'.body.symm
      rw [List.flatMap_cons, List.flatMap_cons] at hbody
      obtain ⟨hfirst, hchar, hrest⟩ := hunit.append_inj hunit' hbody
      rw [ih ⟨hunits, rfl, rfl⟩ ⟨hunits', hrest.symm, rfl⟩, Prod.ext hfirst hchar]

/-- What stands behind a body that is decoded is decoded by itself. -/
theorem unescape_append {body text : List Char} (h : unescape body = .ok text) (rest : List Char) :
    unescape (body ++ rest) = (unescape rest).map (text ++ ·) := by
  obtain ⟨units, hunits, rfl, rfl⟩ := unescape_eq_ok_iff.mp h
  clear h
  induction units with
  | nil => cases hrest : unescape rest <;> simp [hrest, Except.map]
  | cons u units ih =>
    obtain ⟨hunit, hunits⟩ := List.forall_mem_cons.mp hunits
    rw [List.flatMap_cons, List.append_assoc, unescape_unit_append hunit, ih hunits, map_map]
    rfl

/-- A split in the sense of the decoder is one into the units of the table. -/
theorem splits_iff_standsFor {units : List (List Char × Char)} {body text : List Char} :
    Splits units body text ↔ (∀ u ∈ units, StandsFor u.1 u.2) ∧ units.flatMap (·.1) = body ∧
      units.map (·.2) = text := by
  simp only [← isUnit_iff_standsFor]
  exact ⟨fun h => ⟨h.isUnit, h.body, h.text⟩, fun ⟨hunits, hbody, htext⟩ => ⟨hunits, hbody, htext⟩⟩

end Escape

/-! ## Strings -/

namespace Quoted

open Escape

/-- A body is unquoted as its characters are. -/
theorem unquote_eq_ok_iff {body text : String} :
    unquote body = .ok text ↔ unescape body.toList = .ok text.toList := by
  rw [unquote, map_eq_ok_iff]
  constructor
  · rintro ⟨cs, hcs, rfl⟩
    rw [hcs, String.toList_ofList]
  · intro h
    exact ⟨text.toList, h, String.ofList_toList⟩

/-- A body that is unquoted can be continued: the rest is unquoted by itself. -/
theorem unquote_append {body text : String} (h : unquote body = .ok text) (rest : String) :
    unquote (body ++ rest) = (unquote rest).map (text ++ ·) := by
  rw [unquote, unquote, String.toList_append, unescape_append (unquote_eq_ok_iff.mp h), map_map,
    map_map]
  congr 1
  funext cs
  show String.ofList (text.toList ++ cs) = text ++ String.ofList cs
  rw [String.ofList_append, String.ofList_toList]

/-- A body of a literal is decoded exactly if it is a sequence of pieces that each stand for a
character, and its text is the sequence of these characters. No other pieces make up the same body.
What stands behind a body that is decoded neither changes its text nor is changed by it: it adds its
own text, or is refused for its own fault. -/
theorem unquote_iff_units :
    (∀ body text : String, unquote body = .ok text ↔ ∃ units : List (List Char × Char),
      (∀ u ∈ units, StandsFor u.1 u.2) ∧ units.flatMap (·.1) = body.toList ∧
        units.map (·.2) = text.toList) ∧
    (∀ units units' : List (List Char × Char), (∀ u ∈ units, StandsFor u.1 u.2) →
      (∀ u ∈ units', StandsFor u.1 u.2) → units.flatMap (·.1) = units'.flatMap (·.1) →
        units = units') ∧
    ∀ b₁ b₂ t₁ : String, unquote b₁ = .ok t₁ →
      (∀ t₂, unquote b₂ = .ok t₂ → unquote (b₁ ++ b₂) = .ok (t₁ ++ t₂)) ∧
      ∀ fault, unquote b₂ = .error fault → unquote (b₁ ++ b₂) = .error fault := by
  refine ⟨fun body text => ?_, fun units units' hunits hunits' hbody => ?_, fun b₁ b₂ t₁ h => ?_⟩
  · simp only [unquote_eq_ok_iff, unescape_eq_ok_iff, splits_iff_standsFor]
  · exact (splits_iff_standsFor.mpr ⟨hunits, rfl, rfl⟩).unique
      (splits_iff_standsFor.mpr ⟨hunits', hbody.symm, rfl⟩)
  · rw [unquote_append h]
    refine ⟨fun t₂ h₂ => ?_, fun fault h₂ => ?_⟩
    · rw [h₂]
      rfl
    · rw [h₂]
      rfl

/-- A body with a unit of every kind: it is decoded and has no other split, the digit behind its
last unit is not taken into that unit, and a code with too few digits behind it is refused. -/
theorem unquote_iff_units_mixed :
    let units :=
      [(['é'], 'é'), ("\\\\".toList, '\\'), ("\\U0001F6aC".toList, '🚬'), ("\\303".toList, 'Ã')]
    let body := "é\\\\\\U0001F6aC\\303"
    (∀ u ∈ units, StandsFor u.1 u.2) ∧ unquote body = .ok "é\\🚬Ã" ∧
    (∀ units', (∀ u ∈ units', StandsFor u.1 u.2) → units'.flatMap (·.1) = body.toList →
      units' = units) ∧
    unquote (body ++ "7") = .ok ("é\\🚬Ã" ++ "7") ∧
    unquote (body ++ "\\x4") = .error (.hexDigits 2 ['4']) := by
  intro units body
  have hunits : ∀ u ∈ units, StandsFor u.1 u.2 := by
    have hhex : Writes 16 "0001F6aC".toList '🚬'.toNat :=
      (writes_iff (by decide)).mpr ⟨List.all_eq_true.mp (by decide), by decide⟩
    have hoctal : Writes 8 "303".toList 'Ã'.toNat :=
      (writes_iff (by decide)).mpr ⟨List.all_eq_true.mp (by decide), by decide⟩
    simp only [units, List.forall_mem_cons]
    exact ⟨.plain (by decide), .letter (by decide), .hex (by decide) hhex,
      .octal rfl hoctal (by decide), nofun⟩
  have hbody : unquote body = .ok "é\\🚬Ã" :=
    (unquote_iff_units.1 _ _).mpr ⟨units, hunits, by decide, by decide⟩
  refine ⟨hunits, hbody, fun units' hunits' heq => ?_, ?_, ?_⟩
  · exact unquote_iff_units.2.1 units' units hunits' hunits (heq.trans (by decide))
  · exact (unquote_iff_units.2.2 body "7" _ hbody).1 "7" (by decide)
  · exact (unquote_iff_units.2.2 body "\\x4" _ hbody).2 _ (by decide)

end Quoted

end StackMachine
