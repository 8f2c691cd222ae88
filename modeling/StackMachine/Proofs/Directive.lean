import Mathlib.Data.Option.Basic
import StackMachine.Proofs.Lines
import StackMachine.Proofs.Units

/-!
# The grammar of a directive

A comment opens as a directive if it is blanks, the keyword, a name, an address and the word for a
kind, with blanks in between (`IsOpening`), and ends or goes on with a blank there. Then it has to
go on with a literal of that kind (`LiteralFollows`). A comment that does so and has an address that
fits a word declares a parameter (`Declares`), and one that opens as a directive and fails at either
is faulty (`Misdeclares`). Both are said of the text alone, and what follows the literal does not
matter.

The reader cuts a comment from the left, each time as far as it can. A blank stands behind every
word, so the parts of an opening are found in one way only (`readDirective?_of_isOpening`).
`readParameter_iff_declares` gives the three answers that a comment can have.
-/

namespace StackMachine

open Text

/-- A name that can stand in a directive: one or more letters and digits of ASCII. -/
def PlainName (name : String) : Prop := name ≠ "" ∧ ∀ c ∈ name.toList, c.isAlphanum = true

instance (name : String) : Decidable (PlainName name) :=
  decidable_of_iff (name ≠ "" ∧ name.toList.all Char.isAlphanum = true)
    (by rw [PlainName, List.all_eq_true])

namespace Assembly

/-! ## Faults of syntax -/

/-- The fault is one of the way a line is written, not of the name in it. -/
def LineFault.IsSyntax (fault : LineFault) : Prop := ∀ name, fault ≠ .unknownOpcode name

/-- An integer that is refused is a fault of syntax. -/
theorem isSyntax_of_readInt {rest : List Char} {fault : LineFault}
    (h : readInt rest = .error fault) : fault.IsSyntax := by
  unfold readInt at h
  split at h
  · cases h
  · split at h <;> cases h
    nofun

/-- A string that is refused is a fault of syntax. -/
theorem isSyntax_of_readString {rest : List Char} {fault : LineFault}
    (h : readString rest = .error fault) : fault.IsSyntax := by
  obtain ⟨_, _, _, _, _, _, rfl⟩ := exists_scan_of_readString h
  nofun

/-! ## The parts of a directive -/

/-- One or more blanks. -/
def IsGap (gap : List Char) : Prop := gap ≠ [] ∧ ∀ c ∈ gap, isBlank c = true

/-- The words for the kinds that a parameter may have. -/
inductive NamesKind : List Char → Kind → Prop
  | int : NamesKind "int".toList .int
  | str : NamesKind "str".toList .string
  | string : NamesKind "string".toList .string

/-- The part of a directive up to its kind. -/
def IsOpening (name : String) (address : List Char) (kind : Kind) (opening : List Char) : Prop :=
  ∃ blanks gap₁ gap₂ gap₃ word, opening = blanks ++ ("@param".toList ++ (gap₁ ++ (name.toList ++
      (gap₂ ++ (address ++ (gap₃ ++ word)))))) ∧
    (∀ c ∈ blanks, isBlank c = true) ∧ IsGap gap₁ ∧ PlainName name ∧ IsGap gap₂ ∧
    (∃ k, Numeral.Denotes address k) ∧ IsGap gap₃ ∧ NamesKind word kind

/-- The name in an opening is a plain one. -/
theorem IsOpening.plainName {name : String} {address opening : List Char} {kind : Kind}
    (h : IsOpening name address kind opening) : PlainName name := by
  obtain ⟨_, _, _, _, _, -, -, -, hname, -⟩ := h
  exact hname

/-- The address in an opening is a numeral. -/
theorem IsOpening.address {name : String} {address opening : List Char} {kind : Kind}
    (h : IsOpening name address kind opening) : ∃ k, Numeral.Denotes address k := by
  obtain ⟨_, _, _, _, _, -, -, -, -, -, haddress, -, -⟩ := h
  exact haddress

/-- A text that begins with a literal of the value. A numeral is the longest one. -/
inductive BeginsWith : Value → List Char → Prop
  | int {n : Int64} {numeral rest : List Char} : Numeral.Denotes numeral n.toInt →
      Stops Char.isDigit rest → BeginsWith (.int n) (numeral ++ rest)
  | str {s : String} {body : List Char} (rest : List Char) : Quoted.Denotes body s.toList →
      BeginsWith (.str s) ('"' :: (body ++ '"' :: rest))

/-- Blanks and a literal of the value follow, and anything behind them. -/
def LiteralFollows (v : Value) (text : List Char) : Prop :=
  ∃ gap rest, text = gap ++ rest ∧ IsGap gap ∧ BeginsWith v rest

/-- The comment declares the parameter. -/
def Declares (comment : List Char) (p : Parameter) : Prop :=
  ∃ opening address text, comment = opening ++ text ∧
    IsOpening p.name address p.value.kind opening ∧
    Numeral.Denotes address p.address.toInt ∧ LiteralFollows p.value text

/-- The comment opens as a directive, and its address fits no word or no literal of its kind
follows. -/
def Misdeclares (comment : List Char) : Prop :=
  ∃ opening name address kind text, comment = opening ++ text ∧
    IsOpening name address kind opening ∧
    (∀ c ∈ text.head?, isBlank c = true) ∧
    ((∃ k, Numeral.Denotes address k ∧ (k < -0x8000000000000000 ∨ 0x8000000000000000 ≤ k)) ∨
      ¬∃ v, v.kind = kind ∧ LiteralFollows v text)

/-! ## Reading the parts -/

/-- A gap is skipped exactly if it has at least one blank and the text behind it has none in
front. -/
theorem skipBlanks1_eq_some_iff {cs rest : List Char} : skipBlanks1 cs = some rest ↔
    ∃ gap, cs = gap ++ rest ∧ IsGap gap ∧ Stops isBlank rest := by
  constructor
  · intro h
    unfold skipBlanks1 at h
    split at h
    · rename_i c cs
      split at h
      · rename_i hc
        obtain ⟨gap, hcut, hgap, hstop⟩ := skipBlanks_eq_iff.mp (Option.some.inj h)
        refine ⟨gap, hcut, ⟨?_, hgap⟩, hstop⟩
        rintro rfl
        rw [List.nil_append] at hcut
        rw [← hcut, stops_cons, hc] at hstop
        cases hstop
      · cases h
    · cases h
  · rintro ⟨gap, rfl, ⟨hne, hgap⟩, hstop⟩
    obtain ⟨c, gap, rfl⟩ := List.exists_cons_of_ne_nil hne
    have hskip := skipBlanks_append hgap hstop
    rw [List.cons_append] at hskip ⊢
    simp only [skipBlanks1, hgap c List.mem_cons_self, if_true, hskip]

/-- A word is read as a kind exactly if it names it. -/
theorem kindOfWord?_eq_some_iff {word : List Char} {kind : Kind} :
    kindOfWord? word = some kind ↔ NamesKind word kind := by
  constructor
  · intro h
    unfold kindOfWord? at h
    split at h
    · rename_i hword
      cases h
      exact hword ▸ .int
    · split at h
      · rename_i hword
        cases h
        obtain rfl | rfl := hword
        · exact .str
        · exact .string
      · cases h
  · intro h
    cases h <;> rfl

/-- The words for kinds are made of letters. -/
theorem NamesKind.letters {word : List Char} {kind : Kind} (h : NamesKind word kind) :
    word ≠ [] ∧ ∀ c ∈ word, c.isAlphanum = true := by
  cases h <;> exact ⟨by decide, List.all_eq_true.mp (by decide)⟩

/-- A blank is neither a letter nor a digit. -/
theorem isAlphanum_of_isBlank {c : Char} (h : isBlank c = true) : c.isAlphanum = false := by
  rw [← Bool.not_eq_true]
  intro hc
  rw [isBlank_of_isAlphanum hc] at h
  cases h

/-- A blank is no digit. -/
theorem isDigit_of_isBlank {c : Char} (h : isBlank c = true) : c.isDigit = false := by
  rw [← Bool.not_eq_true]
  intro hc
  rw [isBlank_of_isAlphanum (isAlphanum_of_isDigit hc)] at h
  cases h

/-- What is read as a directive opens as one, and there it ends or goes on with a blank. -/
theorem exists_isOpening_of_readDirective? {comment : List Char} {d : Directive}
    (h : readDirective? comment = some d) : ∃ opening, comment = opening ++ d.rest ∧
      IsOpening (String.ofList d.name) d.address d.kind opening ∧
      ∀ c ∈ d.rest.head?, isBlank c = true := by
  simp only [readDirective?, Option.bind_eq_bind, Option.bind_eq_some_iff, Option.guard_eq_some',
    Option.pure_def, Option.some.injEq, List.isPrefixOf?_eq_some_iff_append_eq, Prod.exists,
    exists_const] at h
  obtain ⟨cs₁, hkeyword, cs₂, hskip₁, hne, cs₃, hskip₂, address, cs₄, hscan, cs₅, hskip₃, kind,
    hkind, rfl⟩ := h
  dsimp only
  generalize hname : cs₂.takeWhile Char.isAlphanum = name,
    hafter : cs₂.dropWhile Char.isAlphanum = after at *
  generalize hword : cs₅.takeWhile (!isBlank ·) = word,
    hrest : cs₅.dropWhile (!isBlank ·) = rest at *
  obtain ⟨blanks, rfl, hblanks, -⟩ := skipBlanks_eq_iff.mp hkeyword.symm
  obtain ⟨gap₁, rfl, hgap₁, -⟩ := skipBlanks1_eq_some_iff.mp hskip₁
  obtain ⟨rfl, hletters, -⟩ := takeWhile_dropWhile_eq_iff.mp ⟨hname, hafter⟩
  obtain ⟨gap₂, rfl, hgap₂, -⟩ := skipBlanks1_eq_some_iff.mp hskip₂
  obtain ⟨rfl, haddress, -⟩ := Numeral.scan_eq_some_iff.mp hscan
  obtain ⟨gap₃, rfl, hgap₃, -⟩ := skipBlanks1_eq_some_iff.mp hskip₃
  obtain ⟨rfl, -, hstop⟩ := takeWhile_dropWhile_eq_iff.mp ⟨hword, hrest⟩
  have hplain : PlainName (String.ofList name) := by
    rw [PlainName, String.toList_ofList]
    exact ⟨mt String.ofList_eq_empty_iff.mp hne, hletters⟩
  refine ⟨_, ?_,
    ⟨blanks, gap₁, gap₂, gap₃, word, rfl, hblanks, hgap₁, hplain, hgap₂, haddress, hgap₃,
    kindOfWord?_eq_some_iff.mp hkind⟩, fun c hc => ?_⟩
  · simp only [String.toList_ofList, List.append_assoc]
  · simpa using hstop c hc

/-- An opening at which a comment ends or goes on with a blank is read as a directive. The text
behind each of its parts does not continue that part. -/
theorem readDirective?_of_isOpening {name : String} {address opening rest : List Char} {kind : Kind}
    (h : IsOpening name address kind opening) (hrest : ∀ c ∈ rest.head?, isBlank c = true) :
    readDirective? (opening ++ rest) = some { name := name.toList, address, kind, rest } := by
  obtain ⟨blanks, gap₁, gap₂, gap₃, word, rfl, hblanks, hgap₁, ⟨hname, hletters⟩, hgap₂, ⟨k, hk⟩,
    hgap₃, hword⟩ := h
  have hnil : name.toList ≠ [] := mt String.toList_eq_nil_iff.mp hname
  obtain ⟨hwordne, hwordletters⟩ := hword.letters
  have hwordplain : ∀ c ∈ word, isBlank c = false :=
    fun c hc => isBlank_of_isAlphanum (hwordletters c hc)
  have hrun : ∀ c ∈ word, (!isBlank c) = true := fun c hc => by simpa using hwordplain c hc
  generalize htext₁ : word ++ rest = text₁
  generalize htext₂ : address ++ (gap₃ ++ text₁) = text₂
  generalize htext₃ : name.toList ++ (gap₂ ++ text₂) = text₃
  generalize htext₄ : "@param".toList ++ (gap₁ ++ text₃) = text₄
  have hstop₁ : Stops (!isBlank ·) rest := fun c hc => by simpa using hrest c hc
  have hstop₂ : Stops Char.isDigit (gap₃ ++ text₁) :=
    stops_append hgap₃.1 (fun c hc => isDigit_of_isBlank (hgap₃.2 c hc)) _
  have hstop₃ : Stops Char.isAlphanum (gap₂ ++ text₂) :=
    stops_append hgap₂.1 (fun c hc => isAlphanum_of_isBlank (hgap₂.2 c hc)) _
  have hfront₁ : Stops isBlank text₁ := htext₁ ▸ stops_append hwordne hwordplain _
  have hfront₂ : Stops isBlank text₂ := htext₂ ▸ hk.stops_append (by decide)
    (fun _ hd => isBlank_of_isAlphanum (isAlphanum_of_isDigit hd)) _
  have hfront₃ : Stops isBlank text₃ :=
    htext₃ ▸ stops_append hnil (fun c hc => isBlank_of_isAlphanum (hletters c hc)) _
  have hletters₄ : "@param".toList.all (!isBlank ·) = true := by decide
  have hfront₄ : Stops isBlank text₄ := htext₄ ▸ stops_append (by decide)
    (fun c hc => by simpa using List.all_eq_true.mp hletters₄ c hc) _
  have hcut : blanks ++ ("@param".toList ++ (gap₁ ++ (name.toList ++ (gap₂ ++ (address ++
      (gap₃ ++ word)))))) ++ rest = blanks ++ text₄ := by
    simp only [← htext₁, ← htext₂, ← htext₃, ← htext₄, List.append_assoc]
  have hkeyword : "@param".toList.isPrefixOf? text₄ = some (gap₁ ++ text₃) :=
    List.isPrefixOf?_eq_some_iff_append_eq.mpr htext₄
  have hskip₁ : skipBlanks1 (gap₁ ++ text₃) = some text₃ :=
    skipBlanks1_eq_some_iff.mpr ⟨gap₁, rfl, hgap₁, hfront₃⟩
  have hskip₂ : skipBlanks1 (gap₂ ++ text₂) = some text₂ :=
    skipBlanks1_eq_some_iff.mpr ⟨gap₂, rfl, hgap₂, hfront₂⟩
  have hskip₃ : skipBlanks1 (gap₃ ++ text₁) = some text₁ :=
    skipBlanks1_eq_some_iff.mpr ⟨gap₃, rfl, hgap₃, hfront₁⟩
  have hscan : Numeral.scan text₂ = some (address, gap₃ ++ text₁) :=
    Numeral.scan_eq_some_iff.mpr ⟨htext₂.symm, ⟨k, hk⟩, hstop₂⟩
  rw [hcut, readDirective?, skipBlanks_append hblanks hfront₄, hkeyword]
  simp only [Option.bind_eq_bind, Option.bind_some, hskip₁]
  rw [← htext₃, takeWhile_append_of_stops hletters hstop₃,
    dropWhile_append_of_stops hletters hstop₃]
  simp only [guard, if_pos hnil, Option.pure_def, Option.bind_some, hskip₂, hscan, hskip₃]
  rw [← htext₁, takeWhile_append_of_stops hrun hstop₁, dropWhile_append_of_stops hrun hstop₁,
    kindOfWord?_eq_some_iff.mpr hword]
  rfl

/-! ## The literal -/

/-- A text that begins with a literal does not begin with a blank. -/
theorem BeginsWith.front {v : Value} {text : List Char} (h : BeginsWith v text) :
    text ≠ [] ∧ Stops isBlank text := by
  cases h with
  | int hnumeral _ =>
    exact ⟨List.append_ne_nil_of_left_ne_nil hnumeral.ne_nil _, hnumeral.stops_append (by decide)
      (fun _ hd => isBlank_of_isAlphanum (isAlphanum_of_isDigit hd)) _⟩
  | str rest _ => exact ⟨List.cons_ne_nil _ _, (stops_cons ..).mpr (by decide)⟩

/-- A blank stands in front of a literal. -/
theorem LiteralFollows.head {v : Value} {text : List Char} (h : LiteralFollows v text) :
    ∀ c ∈ text.head?, isBlank c = true := by
  obtain ⟨gap, rest, rfl, ⟨hne, hgap⟩, -⟩ := h
  obtain ⟨b, gap, rfl⟩ := List.exists_cons_of_ne_nil hne
  rintro _ ⟨⟩
  exact hgap b List.mem_cons_self

/-- Where a text ends or begins with a blank, the blanks in front of a literal are a gap. -/
theorem literalFollows_iff {v : Value} {text : List Char}
    (htext : ∀ c ∈ text.head?, isBlank c = true) :
    LiteralFollows v text ↔
      ∃ blanks rest, text = blanks ++ rest ∧ (∀ c ∈ blanks, isBlank c = true) ∧
        BeginsWith v rest := by
  constructor
  · rintro ⟨gap, rest, rfl, hgap, hliteral⟩
    exact ⟨gap, rest, rfl, hgap.2, hliteral⟩
  · rintro ⟨blanks, rest, rfl, hblanks, hliteral⟩
    refine ⟨blanks, rest, rfl, ⟨?_, hblanks⟩, hliteral⟩
    rintro rfl
    obtain ⟨hne, hstop⟩ := hliteral.front
    obtain ⟨c, cs, rfl⟩ := List.exists_cons_of_ne_nil hne
    have hblank := htext c rfl
    rw [(stops_cons ..).mp hstop] at hblank
    cases hblank

namespace Directive

variable {d : Directive}

/-- The literal of a directive is read exactly if it follows and is of the directive's kind. -/
theorem readLiteral_eq_some_iff {v : Value} (hrest : ∀ c ∈ d.rest.head?, isBlank c = true) :
    d.readLiteral = .ok (some v) ↔ v.kind = d.kind ∧ LiteralFollows v d.rest := by
  rw [literalFollows_iff hrest]
  unfold readLiteral
  cases hkind : d.kind with
  | int =>
    dsimp only
    rw [map_eq_ok_iff]
    constructor
    · rintro ⟨read, hread, hvalue⟩
      obtain ⟨⟨n, k⟩, rfl, rfl⟩ := Option.map_eq_some_iff.mp hvalue
      obtain ⟨blanks, numeral, tail, hcut, hblanks, hnumeral, hstop, -⟩ :=
        readInt_eq_some_iff.mp hread
      exact ⟨rfl, blanks, _, hcut, hblanks, .int hnumeral hstop⟩
    · rintro ⟨hv, blanks, rest, hcut, hblanks, hliteral⟩
      cases hliteral with
      | int hnumeral hstop =>
        exact ⟨_, readInt_eq_some_iff.mpr ⟨blanks, _, _, hcut, hblanks, hnumeral, hstop, rfl⟩, rfl⟩
      | str _ _ => cases hv
  | string =>
    dsimp only
    rw [map_eq_ok_iff]
    constructor
    · rintro ⟨read, hread, hvalue⟩
      obtain ⟨⟨s, k⟩, rfl, rfl⟩ := Option.map_eq_some_iff.mp hvalue
      obtain ⟨blanks, body, tail, hcut, hblanks, hbody, -⟩ := readString_eq_some_iff.mp hread
      exact ⟨rfl, blanks, _, hcut, hblanks, .str tail hbody⟩
    · rintro ⟨hv, blanks, rest, hcut, hblanks, hliteral⟩
      cases hliteral with
      | int _ _ => cases hv
      | str tail hbody =>
        exact ⟨_, readString_eq_some_iff.mpr ⟨blanks, _, tail, hcut, hblanks, hbody, rfl⟩, rfl⟩
  | undefined =>
    constructor
    · intro h
      cases h
    · rintro ⟨hv, -⟩
      cases v <;> cases hv

/-- A directive declares the parameter of its name whose address and literal it has. -/
theorem parameter_eq_ok_iff {p : Parameter} (haddress : ∃ k, Numeral.Denotes d.address k)
    (hrest : ∀ c ∈ d.rest.head?, isBlank c = true) :
    d.parameter = .ok p ↔
      p.name = String.ofList d.name ∧ Numeral.Denotes d.address p.address.toInt ∧
      p.value.kind = d.kind ∧ LiteralFollows p.value d.rest := by
  obtain ⟨k, hk⟩ := haddress
  rw [← hk.word?_denote_eq_some_iff, ← readLiteral_eq_some_iff hrest]
  unfold parameter
  constructor
  · intro h
    split at h
    · cases h
    · rename_i address hword
      split at h
      · cases h
      · cases h
      · rename_i value hliteral
        cases h
        exact ⟨rfl, hword, hliteral⟩
  · rintro ⟨hname, hword, hliteral⟩
    simp only [hword, hliteral, ← hname]

/-- A directive that is refused is a fault of syntax. -/
theorem isSyntax_of_parameter {fault : LineFault} (h : d.parameter = .error fault) :
    fault.IsSyntax := by
  have hread (hliteral : d.readLiteral = .error fault) : fault.IsSyntax := by
    unfold readLiteral at hliteral
    split at hliteral
    · exact isSyntax_of_readInt (map_eq_error_iff.mp hliteral)
    · exact isSyntax_of_readString (map_eq_error_iff.mp hliteral)
    · cases hliteral
  unfold parameter at h
  split at h
  · cases h
    nofun
  · split at h
    · rename_i hliteral
      cases h
      exact hread hliteral
    · cases h
      nofun
    · cases h

end Directive

/-! ## The comment -/

/-- A comment is read as a parameter exactly if it declares it. -/
theorem readParameter_eq_some_iff {comment : List Char} {p : Parameter} :
    readParameter comment = .ok (some p) ↔ Declares comment p := by
  unfold readParameter
  constructor
  · intro h
    cases hread : readDirective? comment with
    | none =>
      rw [hread] at h
      cases h
    | some d =>
      rw [hread] at h
      obtain ⟨_, hp, ⟨⟩⟩ := map_eq_ok_iff.mp h
      obtain ⟨opening, hcut, hopening, hrest⟩ := exists_isOpening_of_readDirective? hread
      obtain ⟨hname, haddress, hkind, hliteral⟩ :=
        (Directive.parameter_eq_ok_iff hopening.address hrest).mp hp
      rw [← hname, ← hkind] at hopening
      exact ⟨opening, d.address, d.rest, hcut, hopening, haddress, hliteral⟩
  · rintro ⟨opening, address, text, rfl, hopening, haddress, hliteral⟩
    have hp := (Directive.parameter_eq_ok_iff (d := ⟨p.name.toList, address, p.value.kind, text⟩)
      hopening.address hliteral.head).mpr ⟨String.ofList_toList.symm, haddress, rfl, hliteral⟩
    rw [readDirective?_of_isOpening hopening hliteral.head]
    dsimp only
    rw [hp]
    rfl

/-- A comment is refused exactly if it opens as a directive with an address that fits no word, or
without a literal of its kind. -/
theorem readParameter_eq_error_iff {comment : List Char} :
    (∃ fault, readParameter comment = .error fault) ↔ Misdeclares comment := by
  unfold readParameter
  constructor
  · rintro ⟨fault, h⟩
    cases hread : readDirective? comment with
    | none =>
      rw [hread] at h
      cases h
    | some d =>
      rw [hread] at h
      have hp := map_eq_error_iff.mp h
      obtain ⟨opening, hcut, hopening, hrest⟩ := exists_isOpening_of_readDirective? hread
      obtain ⟨k, hk⟩ := hopening.address
      refine ⟨opening, _, d.address, d.kind, d.rest, hcut, hopening, hrest, ?_⟩
      cases hword : Numeral.word? k with
      | none => exact .inl ⟨k, hk, Numeral.word?_eq_none_iff.mp hword⟩
      | some address =>
        rw [← hk.denote_eq, hk.word?_denote_eq_some_iff] at hword
        refine .inr ?_
        rintro ⟨v, hkind, hliteral⟩
        have hok := (Directive.parameter_eq_ok_iff (p := ⟨String.ofList d.name, address, v⟩) ⟨k, hk⟩
          hrest).mpr ⟨rfl, hword, hkind, hliteral⟩
        cases hok.symm.trans hp
  · rintro ⟨opening, name, address, kind, text, rfl, hopening, htext, hwrong⟩
    rw [readDirective?_of_isOpening hopening htext]
    dsimp only
    cases hp : Directive.parameter ⟨name.toList, address, kind, text⟩ with
    | error fault => exact ⟨fault, rfl⟩
    | ok p =>
      obtain ⟨-, haddress, hkind, hliteral⟩ :=
        (Directive.parameter_eq_ok_iff hopening.address htext).mp hp
      obtain ⟨k, hk, hrange⟩ | hnone := hwrong
      · have hword := Numeral.word?_eq_none_iff.mpr hrange
        rw [← hk.denote_eq, haddress.denote_eq, Numeral.word?_toInt] at hword
        cases hword
      · exact absurd ⟨p.value, hkind, hliteral⟩ hnone

/-- A fault of a comment of the header is reported with the number of its line. -/
theorem addLines_of_readParameter_error {comment : List Char} {fault : LineFault}
    (h : readParameter comment = .error fault) (hline : '\n' ∉ comment) (chain : Chain)
    (number : Nat) {a : Assembled} (ha : a.program = #[]) :
    a.addLines chain number [encode (';' :: comment)] = .error (.line number fault) := by
  have hskip : skipBlanks (';' :: comment) = ';' :: comment :=
    skipBlanks_of_stops ((stops_cons ..).mpr (by decide))
  have hdecode : decodeLine (encode (';' :: comment)) = some (';' :: comment) :=
    decodeLine_encode_last (List.not_mem_cons_of_ne_of_not_mem (by decide) hline)
  simp only [Assembled.addLines, hdecode, addLine_comment hskip, ha, Array.isEmpty_empty, if_true,
    h, Except.map, Except.mapError]

/-- A comment declares a parameter exactly if it is the keyword, a name, an address that fits a
word, the word for a kind and a literal of that kind, whatever follows; the parameter has this name,
this address and the value of the literal. It has a fault exactly if it opens as a directive up to
the kind, ends or goes on with a blank there, and its address fits no word or no such literal
follows. The fault is one of syntax, and the assembler reports it with the number of the line. All
other comments are idle. -/
theorem readParameter_iff_declares (comment : List Char) :
    (∀ p, readParameter comment = .ok (some p) ↔ Declares comment p) ∧
    ((∃ fault, readParameter comment = .error fault) ↔ Misdeclares comment) ∧
    (∀ fault, readParameter comment = .error fault → fault.IsSyntax ∧
      ∀ chain number (a : Assembled), a.program = #[] → '\n' ∉ comment →
        a.addLines chain number [encode (';' :: comment)] = .error (.line number fault)) ∧
    (readParameter comment = .ok none ↔ (¬∃ p, Declares comment p) ∧ ¬Misdeclares comment) := by
  refine ⟨fun p => readParameter_eq_some_iff, readParameter_eq_error_iff,
    fun fault h => ⟨?_, ?_⟩, ?_⟩
  · unfold readParameter at h
    split at h
    · cases h
    · exact Directive.isSyntax_of_parameter (map_eq_error_iff.mp h)
  · intro chain number a ha hline
    exact addLines_of_readParameter_error h hline chain number ha
  · rw [← readParameter_eq_error_iff]
    simp only [← readParameter_eq_some_iff]
    rcases hread : readParameter comment with fault | _ | p <;> simp

/-- A declaration with other blanks than spaces, a padded address and text right behind its literal;
an address that is too large by one, on the third line of a header; a directive that ends with its
kind; and a word that goes on behind the word for a kind. -/
theorem readParameter_iff_declares_mixed :
    readParameter "\u3000@param n1\t-007 string \"a\\x22\"5".toList =
      .ok (some { name := "n1", address := -7, value := .str "a\"" }) ∧
    Misdeclares "@param n 9223372036854775808 int 5".toList ∧
    Assembled.addLines .standard 3 {} [encode ";@param n 9223372036854775808 int 5".toList] =
      .error (.line 3 (.addressRange "9223372036854775808".toList)) ∧
    Misdeclares "@param n 1 str".toList ∧
    readParameter "@param n 1 integer 5".toList = .ok none ∧
    (¬∃ p, Declares "@param n 1 integer 5".toList p) ∧
    ¬Misdeclares "@param n 1 integer 5".toList := by
  have hgap {c : Char} (hc : isBlank c = true) : IsGap [c] :=
    ⟨List.cons_ne_nil _ _, List.forall_mem_singleton.mpr hc⟩
  have hunits : Escape.Splits [(['a'], 'a'), ("\\x22".toList, '"')] "a\\x22".toList "a\"".toList :=
    .cons (.plain (by decide)) (.cons (.hex rfl (List.all_eq_true.mp rfl) rfl) Escape.splits_nil)
  have haddress : Numeral.Denotes "-007".toList (-7) := .minus (by decide) (List.all_eq_true.mp rfl)
  have hdeclares : Declares "\u3000@param n1\t-007 string \"a\\x22\"5".toList
      { name := "n1", address := -7, value := .str "a\"" } :=
    ⟨"\u3000@param n1\t-007 string".toList, "-007".toList, " \"a\\x22\"5".toList, by decide,
      ⟨['\u3000'], [' '], ['\t'], [' '], "string".toList, by decide,
        List.forall_mem_singleton.mpr (by decide), hgap (by decide), by decide, hgap (by decide),
        ⟨_, haddress⟩, hgap (by decide), .string⟩, haddress,
      [' '], _, rfl, hgap (by decide), .str ['5'] ⟨_, hunits, by decide⟩⟩
  have hrange : readParameter "@param n 9223372036854775808 int 5".toList =
      .error (.addressRange "9223372036854775808".toList) := by decide +kernel
  have hmissing :
      readParameter "@param n 1 str".toList = .error (.literalExpected "n" .string) := by
    decide +kernel
  have hidle : readParameter "@param n 1 integer 5".toList = .ok none := by decide +kernel
  obtain ⟨hno, hnot⟩ := (readParameter_iff_declares _).2.2.2.mp hidle
  exact ⟨((readParameter_iff_declares _).1 _).mpr hdeclares,
    (readParameter_iff_declares _).2.1.mp ⟨_, hrange⟩,
    ((readParameter_iff_declares _).2.2.1 _ hrange).2 .standard 3 {} rfl (by decide),
    (readParameter_iff_declares _).2.1.mp ⟨_, hmissing⟩, hidle, hno, hnot⟩

end Assembly

end StackMachine
