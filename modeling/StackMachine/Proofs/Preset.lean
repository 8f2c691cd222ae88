import StackMachine.Proofs.Prelude
import StackMachine.Proofs.Typed

/-!
# Presets, and the integers of all readers

A preset is two numbers with a colon between them (`Preset.Written`). It is the first colon that
counts, so a second one is part of the value, which then is no number. Presets are read one after
the other and give a program only if all of them are read; otherwise the first that is none is
blamed (`Preset.readAll_eq_error_iff`).

Operands, presets and overrides are read by readers of their own. A numeral means the same to all of
them: each reads it as the word that is equal to it (`ReadAs`), or, where there is none, each
refuses it for its range (`RefusedAs`).
-/

namespace StackMachine

open Text Numeral

namespace Text

/-- A text is cut at its first separator. -/
theorem cut_eq_some_iff {separator : Char} {cs before after : List Char} :
    cut separator cs = some (before, after) ↔
      cs = before ++ separator :: after ∧ separator ∉ before := by
  refine ⟨cut_eq_some, ?_⟩
  rintro ⟨rfl, hfirst⟩
  induction before with
  | nil => rw [List.nil_append, cut, if_pos rfl]
  | cons c before ih =>
    obtain ⟨hc, hrest⟩ := not_or.mp (mt List.mem_cons.mpr hfirst)
    rw [List.cons_append, cut, if_neg (Ne.symm hc), ih hrest]
    rfl

end Text

namespace Command.Preset

variable {raw : String} {q : Preset} {before after : List Char}

/-- A text that is a preset: the number of its address, a colon, which is the first one, and the
number of its value. -/
def Written (raw : String) (q : Preset) : Prop :=
  ∃ before after, raw.toList = before ++ ':' :: after ∧ ':' ∉ before ∧
    Typed before q.address.toInt ∧ Typed after q.value.toInt

/-- The two sides of the first colon are read one after the other, and the first that is none
decides. -/
theorem read_of_cut (hraw : raw.toList = before ++ ':' :: after) (hfirst : ':' ∉ before) :
    (∀ cause, readInt (trim before) = .error cause → read raw = .error (.address raw cause)) ∧
    ∀ address, readInt (trim before) = .ok address →
      (∀ cause, readInt (trim after) = .error cause → read raw = .error (.value raw cause)) ∧
      ∀ value, readInt (trim after) = .ok value → read raw = .ok ⟨address, value⟩ := by
  have hcut : cut ':' raw.toList = some (before, after) := cut_eq_some_iff.mpr ⟨hraw, hfirst⟩
  refine ⟨fun cause hbefore => ?_, fun address hbefore =>
    ⟨fun cause hafter => ?_, fun value hafter => ?_⟩⟩
  · simp only [read, hcut, hbefore]
  · simp only [read, hcut, hbefore, hafter]
  · simp only [read, hcut, hbefore, hafter]

/-- A text is read as a preset exactly if it is written as one. -/
theorem read_eq_ok_iff : read raw = .ok q ↔ Written raw q := by
  constructor
  · intro h
    cases hcut : cut ':' raw.toList with
    | none =>
      rw [read, hcut] at h
      cases h
    | some parts =>
      obtain ⟨before, after⟩ := parts
      obtain ⟨hraw, hfirst⟩ := cut_eq_some hcut
      obtain ⟨hrefused, hread⟩ := read_of_cut hraw hfirst
      cases haddress : readInt (trim before) with
      | error cause => cases h.symm.trans (hrefused cause haddress)
      | ok address =>
        obtain ⟨hrefused, hread⟩ := hread address haddress
        cases hvalue : readInt (trim after) with
        | error cause => cases h.symm.trans (hrefused cause hvalue)
        | ok value =>
          cases h.symm.trans (hread value hvalue)
          exact ⟨before, after, hraw, hfirst, readInt_trim_eq_ok_iff.mp haddress,
            readInt_trim_eq_ok_iff.mp hvalue⟩
  · rintro ⟨before, after, hraw, hfirst, haddress, hvalue⟩
    exact ((read_of_cut hraw hfirst).2 _ (readInt_trim_eq_ok_iff.mpr haddress)).2 _
      (readInt_trim_eq_ok_iff.mpr hvalue)

/-! ## All presets -/

/-- The first text that is no preset decides. -/
theorem readAll_eq_error_iff {raws : List String} {fault : Fault} : readAll raws = .error fault ↔
    ∃ good bad rest, raws = good ++ bad :: rest ∧ (∀ raw ∈ good, ∃ q, read raw = .ok q) ∧
      read bad = .error fault := by
  induction raws with
  | nil =>
    constructor
    · intro h
      cases h
    · rintro ⟨good, bad, rest, hraws, -⟩
      exact absurd hraws.symm (by simp)
  | cons raw raws ih =>
    rw [readAll_cons]
    constructor
    · intro h
      cases hread : read raw with
      | error early =>
        rw [hread] at h
        cases h
        exact ⟨[], raw, raws, rfl, nofun, hread⟩
      | ok q =>
        cases hreads : readAll raws with
        | error late =>
          rw [hread, hreads] at h
          cases h
          obtain ⟨good, bad, rest, rfl, hgood, hbad⟩ := ih.mp hreads
          exact ⟨raw :: good, bad, rest, rfl, List.forall_mem_cons.mpr ⟨⟨q, hread⟩, hgood⟩, hbad⟩
        | ok qs =>
          rw [hread, hreads] at h
          cases h
    · rintro ⟨good, bad, rest, hraws, hgood, hbad⟩
      cases good with
      | nil =>
        cases hraws
        rw [hbad]
        rfl
      | cons first good =>
        cases hraws
        obtain ⟨⟨q, hread⟩, hgood⟩ := List.forall_mem_cons.mp hgood
        rw [hread, ih.mpr ⟨good, bad, rest, rfl, hgood, hbad⟩]
        rfl

/-- There are presets to be had exactly if each text is one. -/
theorem exists_readAll_iff {raws : List String} :
    (∃ presets, readAll raws = .ok presets) ↔ ∀ raw ∈ raws, ∃ q, read raw = .ok q := by
  simp only [readAll_eq_ok_iff]
  induction raws with
  | nil => exact ⟨fun _ => nofun, fun _ => ⟨[], .nil⟩⟩
  | cons raw raws ih =>
    rw [List.forall_mem_cons, ← ih]
    constructor
    · rintro ⟨_, _ | ⟨hread, hreads⟩⟩
      exact ⟨⟨_, hread⟩, _, hreads⟩
    · rintro ⟨⟨q, hread⟩, presets, hreads⟩
      exact ⟨q :: presets, .cons hread hreads⟩

/-! ## The integers of all readers -/

/-- Every reader reads the text as this word: as an operand of assembly text, as the address and as
the value of a preset, and as a value for an integer parameter. -/
structure ReadAs (t : String) (n : Int64) : Prop where
  operand : Assembly.readInt t.toList = .ok (some (n, utf8Length t.toList))
  address (u : String) (v : Int64) : Typed u.toList v.toInt → read (t ++ ":" ++ u) = .ok ⟨n, v⟩
  value (u : String) (a : Int64) : Typed u.toList a.toInt → read (u ++ ":" ++ t) = .ok ⟨a, n⟩
  override (p : Parameter) (m : Int64) : p.value = .int m →
    (Parameter.set t).run p = (.ok (), { p with value := .int n })

/-- Every reader refuses the text for its range. -/
structure RefusedAs (t : String) (cause : Numeral.Fault) : Prop where
  operand : Assembly.readInt t.toList = .error (.integerRange t.toList)
  address (u : String) : read (t ++ ":" ++ u) = .error (.address (t ++ ":" ++ u) cause)
  value (u : String) (a : Int64) : Typed u.toList a.toInt →
    read (u ++ ":" ++ t) = .error (.value (u ++ ":" ++ t) cause)
  override (p : Parameter) (m : Int64) : p.value = .int m →
    (Parameter.set t).run p = (.error (.notInteger p.name t cause), p)

/-- A number has no colon in it. -/
theorem colon_not_mem_of_typed {cs : List Char} {k : Int} (h : Typed cs k) : ':' ∉ cs := by
  obtain ⟨before, number, after, rfl, hbefore, hafter, hnumber⟩ := h
  intro hmem
  rcases List.mem_append.mp hmem with hmem | hmem
  · exact absurd (hbefore _ hmem) (by decide)
  · rcases List.mem_append.mp hmem with hmem | hmem
    · exact absurd (hnumber.chars.2 _ hmem) (by decide)
    · exact absurd (hafter _ hmem) (by decide)

/-- A typed number, a colon and any other text. -/
theorem toList_colon (t u : String) : (t ++ ":" ++ u).toList = t.toList ++ ':' :: u.toList := by
  simp [String.toList_append]

/-- A numeral that fits a word is read by every reader. -/
theorem readAs_of_denotes {t : String} {n : Int64} (h : Denotes t.toList n.toInt) : ReadAs t n where
  operand := Assembly.readInt_eq_some_iff.mpr
    ⟨[], t.toList, [], (List.append_nil _).symm, nofun, h, stops_nil _, rfl⟩
  address u v hu := by
    have ht : Typed t.toList n.toInt := (Signed.numeral h).typed
    exact read_eq_ok_iff.mpr ⟨_, _, toList_colon t u, colon_not_mem_of_typed ht, ht, hu⟩
  value u a hu := by
    have ht : Typed t.toList n.toInt := (Signed.numeral h).typed
    exact read_eq_ok_iff.mpr ⟨_, _, toList_colon u t, colon_not_mem_of_typed hu, hu, ht⟩
  override p m hp := by
    rw [Parameter.run_set, Parameter.override, hp]
    dsimp only
    rw [readInt_trim_eq_ok_iff.mpr (Signed.numeral h).typed]

/-- A numeral that does not fit a word is refused by every reader. -/
theorem refusedAs_of_denotes {t : String} {k : Int} (h : Denotes t.toList k) (hk : word? k = none) :
    RefusedAs t (outOfRange k) := by
  have ht : Typed t.toList k := (Signed.numeral h).typed
  have hread : readInt (trim t.toList) = .error (outOfRange k) :=
    ht.readInt_trim.trans (toWord_of_none hk)
  refine ⟨?operand, fun u => ?address, fun u a hu => ?value, fun p m hp => ?override⟩
  case operand =>
    have hfront : Stops isBlank (t.toList ++ []) :=
      h.stops_append (by decide) (fun _ hd => isBlank_of_isAlphanum (isAlphanum_of_isDigit hd)) []
    have hscan : scan t.toList = some (t.toList, []) :=
      scan_eq_some_iff.mpr ⟨(List.append_nil _).symm, ⟨k, h⟩, stops_nil _⟩
    rw [List.append_nil] at hfront
    simp only [Assembly.readInt, skipBlanks_of_stops hfront, hscan, h.denote_eq, hk]
  case address => exact (read_of_cut (toList_colon t u) (colon_not_mem_of_typed ht)).1 _ hread
  case value =>
    exact ((read_of_cut (toList_colon u t) (colon_not_mem_of_typed hu)).2 _
      (readInt_trim_eq_ok_iff.mpr hu)).1 _ hread
  case override =>
    rw [Parameter.run_set, Parameter.override, hp]
    dsimp only
    rw [hread]

/-- Presets are read exactly, in their order and all or none. A text is a preset exactly if the two
sides of its first colon are numbers that fit a word, and then it is their preset; so the decimal
forms of two words give these back. Texts give a program exactly if each is a preset, and then the
program stores these one after the other; otherwise the fault is that of the first text that is
none. A numeral is read as the same word by the readers of operands, of both sides of a preset and
of overrides, or is refused by all of them for its range. -/
theorem presets_exact :
    (∀ raw q, read raw = .ok q ↔ Written raw q) ∧
    (∀ a v : Int64, read (String.ofList (decimal a.toInt ++ ':' :: decimal v.toInt)) = .ok ⟨a, v⟩) ∧
    (∀ raws,
      let program := (readAll raws).map prelude
      ((∃ p, program = .ok p) ↔ ∀ raw ∈ raws, ∃ q, Written raw q) ∧
      (∀ p, program = .ok p ↔ ∃ presets, List.Forall₂ Written raws presets ∧
        p = (presets.flatMap fun q => [.pushInt q.value, .storeMemory q.address]).toArray) ∧
      ∀ fault, program = .error fault ↔ ∃ good bad rest, raws = good ++ bad :: rest ∧
        (∀ raw ∈ good, ∃ q, Written raw q) ∧ read bad = .error fault) ∧
    ∀ (t : String) (k : Int), Denotes t.toList k →
      (∃ n : Int64, n.toInt = k ∧ ReadAs t n) ∨
        (k < -0x8000000000000000 ∨ 0x8000000000000000 ≤ k) ∧ RefusedAs t (outOfRange k) := by
  refine ⟨fun raw q => read_eq_ok_iff, fun a v => ?decimals,
    fun raws => ⟨?each, fun p => ?program, fun fault => ?first⟩, fun t k h => ?readers⟩
  case decimals =>
    have ha : Typed (decimal a.toInt) a.toInt := (Signed.numeral (denotes_decimal _)).typed
    have hv : Typed (decimal v.toInt) v.toInt := (Signed.numeral (denotes_decimal _)).typed
    exact read_eq_ok_iff.mpr ⟨_, _, String.toList_ofList, colon_not_mem_of_typed ha, ha, hv⟩
  case each =>
    simp only [map_eq_ok_iff, ← read_eq_ok_iff, ← exists_readAll_iff]
    constructor
    · exact fun ⟨_, presets, hpresets, _⟩ => ⟨presets, hpresets⟩
    · exact fun ⟨presets, hpresets⟩ => ⟨_, presets, hpresets, rfl⟩
  case program =>
    simp only [map_eq_ok_iff, readAll_eq_ok_iff, read_eq_ok_iff]
    exact exists_congr fun presets => and_congr_right fun _ => eq_comm
  case first =>
    simp only [map_eq_error_iff, readAll_eq_error_iff, read_eq_ok_iff]
  case readers =>
    cases hk : word? k with
    | some n =>
      obtain rfl := word?_eq_some_iff.mp hk
      exact .inl ⟨n, rfl, readAs_of_denotes h⟩
    | none => exact .inr ⟨word?_eq_none_iff.mp hk, refusedAs_of_denotes h hk⟩

/-- Blanks of two kinds, both signs and the least word; a second colon in the second of three texts;
and the numerals next to the two ends of the range, one of them behind zeros. -/
theorem presets_exact_at_ends :
    Written "\u3000+07 :\t-9223372036854775808" ⟨7, Int64.minValue⟩ ∧
    (∃ good bad rest, ["1:2", "3:4:5", "6"] = good ++ bad :: rest ∧
      (∀ raw ∈ good, ∃ q, Written raw q) ∧ read bad = .error (.value "3:4:5" .invalidDigit)) ∧
    Denotes "-0009223372036854775808".toList (-0x8000000000000000) ∧
    ReadAs "-0009223372036854775808" Int64.minValue ∧
    Denotes "9223372036854775808".toList 0x8000000000000000 ∧
    RefusedAs "9223372036854775808" .tooLarge := by
  obtain ⟨hread, -, hall, hreaders⟩ := presets_exact
  have hleast : Denotes "-0009223372036854775808".toList (-0x8000000000000000) :=
    @Denotes.minus "0009223372036854775808".toList (by decide) (List.all_eq_true.mp (by decide))
  have hbeyond : Denotes "9223372036854775808".toList 0x8000000000000000 :=
    .digits (by decide) (List.all_eq_true.mp (by decide))
  refine ⟨(hread _ _).mp rfl, ((hall _).2.2 _).mp rfl, hleast, ?_, hbeyond, ?_⟩
  · obtain ⟨n, hn, hleast⟩ | ⟨hrange, -⟩ := hreaders _ _ hleast
    · rwa [Int64.toInt_inj.mp (hn.trans (rfl : _ = Int64.minValue.toInt))] at hleast
    · exact absurd hrange (by decide)
  · obtain ⟨n, hn, -⟩ | ⟨-, hbeyond⟩ := hreaders _ _ hbeyond
    · exact absurd (hn ▸ n.toInt_lt) (by decide)
    · exact hbeyond

end Command.Preset

end StackMachine
