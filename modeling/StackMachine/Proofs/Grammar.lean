import Mathlib.Data.List.TakeWhile
import StackMachine.Proofs.Mnemonics

/-!
# The grammar of an instruction line

A line that holds an instruction is blanks, a mnemonic in letters of either case, the operand that
it wants, blanks, and perhaps a comment (`IsLineOf`). The readers cut a line greedily from the left,
so each of them is given by an equivalence that says what it takes and what the text behind must not
go on with: `Numeral.scan_eq_some_iff`, `Form.Makes.exists_read_iff`, `readName?_eq_some_iff`. No
such condition is left in the grammar, because what may follow a mnemonic or a numeral in a line
never continues it (`IsEnd.stops`, `stops_append_of_writtenAs`).

`readLine_cases` says all that reading a line can come to. It gives the lines that are accepted, for
every chain of families (`readLine_eq_ok_iff`), and those that are refused for their name
(`readLine_eq_unknownOpcode_iff`); `assembleText_line` says both of a source of one line.
-/

namespace StackMachine

open Text

namespace Assembly

/-! ## The end of a line -/

/-- What may stand behind an instruction: blanks, then nothing or a comment. -/
def IsEnd (tail : List Char) : Prop :=
  ∃ blanks rest, tail = blanks ++ rest ∧ (∀ c ∈ blanks, isBlank c = true) ∧
    (rest = [] ∨ ∃ comment, rest = ';' :: comment)

/-- A text passes for the end of a line exactly if it is one. -/
theorem checkEnd_eq_ok_iff {tail : List Char} : checkEnd tail = .ok () ↔ IsEnd tail := by
  unfold checkEnd
  constructor
  · intro h
    have hskip : skipBlanks tail = [] ∨ ∃ comment, skipBlanks tail = ';' :: comment := by
      split at h
      · rename_i hnil
        exact .inl hnil
      · rename_i comment hcomment
        exact .inr ⟨comment, hcomment⟩
      · cases h
    obtain ⟨blanks, htail, hblanks, -⟩ := skipBlanks_eq_iff.mp rfl
    exact ⟨blanks, _, htail, hblanks, hskip⟩
  · rintro ⟨blanks, rest, rfl, hblanks, rfl | ⟨comment, rfl⟩⟩
    · rw [skipBlanks_append hblanks (stops_nil _)]
    · rw [skipBlanks_append hblanks ((stops_cons ..).mpr (by decide))]
      rfl

/-- What is left over at the end of a line is a fault of syntax. -/
theorem isSyntax_of_checkEnd {tail : List Char} {fault : LineFault}
    (h : checkEnd tail = .error fault) : fault.IsSyntax := by
  unfold checkEnd at h
  split at h
  · cases h
  · cases h
  · cases h
    nofun

section Stops

variable {p : Char → Bool} (hp : ∀ c, p c = true → c.isAlphanum = true)
include hp

/-- Blanks do not continue a run of letters or digits. -/
theorem stops_blanks_append {blanks rest : List Char} (hblanks : ∀ c ∈ blanks, isBlank c = true)
    (hrest : Stops p rest) : Stops p (blanks ++ rest) := by
  cases blanks with
  | nil => exact hrest
  | cons b blanks =>
    have hblank := hblanks b List.mem_cons_self
    rw [List.cons_append, stops_cons, ← Bool.not_eq_true]
    intro hb
    rw [isBlank_of_isAlphanum (hp b hb)] at hblank
    cases hblank

/-- What stands behind an instruction does not continue a run of letters or digits. -/
theorem IsEnd.stops {tail : List Char} (h : IsEnd tail) : Stops p tail := by
  obtain ⟨blanks, rest, rfl, hblanks, hrest⟩ := h
  refine stops_blanks_append hp hblanks ?_
  obtain rfl | ⟨comment, rfl⟩ := hrest
  · exact stops_nil p
  · rw [stops_cons, ← Bool.not_eq_true]
    intro hc
    exact absurd (hp _ hc) (by decide)

end Stops

/-- What is written behind a mnemonic does not continue it. -/
theorem stops_append_of_writtenAs {operand : Operand} {args tail : List Char}
    (h : operand.WrittenAs args) (htail : Stops Char.isAlpha tail) :
    Stops Char.isAlpha (args ++ tail) := by
  cases h with
  | absent => exact htail
  | int hblanks hnumeral =>
    rw [List.append_assoc]
    exact stops_blanks_append (fun _ => isAlphanum_of_isAlpha) hblanks
      (hnumeral.stops_append (by decide) (fun _ => isAlpha_of_isDigit) tail)
  | text hblanks _ =>
    rw [List.append_assoc]
    exact stops_blanks_append (fun _ => isAlphanum_of_isAlpha) hblanks
      ((stops_cons ..).mpr (by decide))

/-! ## The name in front of a line -/

/-- The first word of a text and what stands behind it: behind blanks the longest run of letters. -/
structure IsFirstWord (word rest text : List Char) : Prop where
  ne_nil : word ≠ []
  letters : ∀ c ∈ word, c.isAlpha = true
  maximal : Stops Char.isAlpha rest
  cut : ∃ blanks, text = blanks ++ (word ++ rest) ∧ ∀ c ∈ blanks, isBlank c = true

/-- The word at the front of a line is read up to where its letters end. -/
theorem readName?_append {word rest : List Char} (hne : word ≠ [])
    (hword : ∀ c ∈ word, c.isAlpha = true) (hrest : Stops Char.isAlpha rest) :
    readName? (word ++ rest) = some (String.ofList (word.map Char.toLower), rest) := by
  have hblank : Stops isBlank (word ++ rest) :=
    stops_append hne (fun c hc => isBlank_of_isAlphanum (isAlphanum_of_isAlpha (hword c hc))) rest
  obtain ⟨c, cs, rfl⟩ := List.exists_cons_of_ne_nil hne
  unfold readName?
  simp only [skipBlanks_of_stops hblank, takeWhile_append_of_stops hword hrest,
    dropWhile_append_of_stops hword hrest]

/-- The name of a line is its first word in small letters. -/
theorem readName?_eq_some_iff {text rest : List Char} {name : String} :
    readName? text = some (name, rest) ↔
      ∃ word, IsFirstWord word rest text ∧ name = String.ofList (word.map Char.toLower) := by
  constructor
  · intro h
    unfold readName? at h
    dsimp only at h
    split at h
    · cases h
    · rename_i c cs hword
      cases h
      obtain ⟨hcut, hletters, hstop⟩ := takeWhile_dropWhile_eq_iff.mp ⟨hword, rfl⟩
      obtain ⟨blanks, htext, hblanks, -⟩ := skipBlanks_eq_iff.mp hcut
      exact ⟨c :: cs, ⟨List.cons_ne_nil c cs, hletters, hstop, blanks, htext, hblanks⟩, rfl⟩
  · rintro ⟨word, ⟨hne, hletters, hstop, blanks, rfl, hblanks⟩, rfl⟩
    have hskip : skipBlanks (blanks ++ (word ++ rest)) = skipBlanks (word ++ rest) :=
      List.dropWhile_append_of_pos hblanks
    have hname := readName?_append hne hletters hstop
    unfold readName? at hname ⊢
    rwa [hskip]

/-! ## The line -/

/-- The text is a line that holds the instruction. -/
def IsLineOf (i : Instruction) (text : List Char) : Prop :=
  ∃ blanks name args tail, text = blanks ++ (name ++ (args ++ tail)) ∧
    (∀ c ∈ blanks, isBlank c = true) ∧ name.map Char.toLower = i.mnemonic.toList ∧
    i.operand.WrittenAs args ∧ IsEnd tail

/-- What reading a line can come to: it has no word, or a word that no family knows, or a mnemonic
with something wrong behind it, or a mnemonic with its operand and the end of the line. -/
theorem readLine_cases (families : List Family) (text : List Char) :
    (readName? text = none ∧ readLine families text = .error .opcodeExpected) ∨
    (∃ name rest, readName? text = some (name, rest) ∧
      (∀ o, familyOf o ∈ families → o.mnemonic ≠ name) ∧
      readLine families text = .error (.unknownOpcode name)) ∨
    (∃ o rest, readName? text = some (o.mnemonic, rest) ∧ familyOf o ∈ families ∧
      ((∃ fault, fault.IsSyntax ∧ readLine families text = .error fault) ∨
        ∃ i args tail, i.opcode = o ∧ rest = args ++ tail ∧ i.operand.WrittenAs args ∧
          IsEnd tail ∧ readLine families text = .ok i)) := by
  unfold readLine
  cases hname : readName? text with
  | none => exact .inl ⟨rfl, rfl⟩
  | some found =>
    obtain ⟨name, rest⟩ := found
    dsimp only
    cases hform : findForm? families name with
    | none => exact .inr (.inl ⟨name, rest, rfl, findForm?_eq_none_iff.mp hform, rfl⟩)
    | some form =>
      obtain ⟨o, hmem, rfl, hmakes⟩ := exists_of_findForm? hform
      refine .inr (.inr ⟨o, rest, rfl, hmem, ?_⟩)
      dsimp only
      cases hread : form.read o.mnemonic rest with
      | error fault => exact .inl ⟨fault, Form.isSyntax_of_read hread, rfl⟩
      | ok parsed =>
        obtain ⟨i, k⟩ := parsed
        obtain ⟨hopcode, args, hrest, hwritten, -⟩ := hmakes.exists_read_iff.mp ⟨k, hread, rfl⟩
        dsimp only
        cases hend : checkEnd (form.left rest) with
        | error fault => exact .inl ⟨fault, isSyntax_of_checkEnd hend, rfl⟩
        | ok _ =>
          exact .inr ⟨i, args, _, hopcode, hrest, hwritten, checkEnd_eq_ok_iff.mp hend, rfl⟩

/-- A mnemonic in letters of either case is the first word of its line. -/
theorem isFirstWord_of_map_toLower {o : Opcode} {blanks name rest : List Char}
    (hblanks : ∀ c ∈ blanks, isBlank c = true) (hname : name.map Char.toLower = o.mnemonic.toList)
    (hrest : Stops Char.isAlpha rest) : IsFirstWord name rest (blanks ++ (name ++ rest)) where
  ne_nil := by
    rintro rfl
    exact o.mnemonic_small.1 hname.symm
  letters c hc := by
    refine isAlpha_of_toLower (o.mnemonic_small.2 c.toLower ?_).1
    rw [← hname]
    exact List.mem_map_of_mem hc
  maximal := hrest
  cut := ⟨blanks, rfl, hblanks⟩

/-- An instruction is read exactly off the lines that hold it, by the families that know its
mnemonic: the end of a line continues neither a numeral nor, if there is no operand, the
mnemonic. -/
theorem readLine_eq_ok_iff {families : List Family} {text : List Char} {i : Instruction} :
    readLine families text = .ok i ↔ familyOf i.opcode ∈ families ∧ IsLineOf i text := by
  constructor
  · intro h
    obtain ⟨-, hr⟩ | ⟨_, _, -, -, hr⟩ | ⟨o, rest, hname, hmem, hread⟩ :=
      readLine_cases families text
    · cases h.symm.trans hr
    · cases h.symm.trans hr
    · obtain ⟨_, -, hr⟩ | ⟨j, args, tail, rfl, rfl, hwritten, hend, hr⟩ := hread
      · cases h.symm.trans hr
      · cases h.symm.trans hr
        obtain ⟨word, ⟨-, -, -, blanks, htext, hblanks⟩, hword⟩ := readName?_eq_some_iff.mp hname
        refine ⟨hmem, blanks, word, args, tail, htext, hblanks, ?_, hwritten, hend⟩
        rw [Instruction.mnemonic, hword, String.toList_ofList]
  · rintro ⟨hmem, blanks, name, args, tail, rfl, hblanks, hname, hwritten, hend⟩
    have halpha : Stops Char.isAlpha tail := hend.stops fun _ => isAlphanum_of_isAlpha
    have hdigit : Stops Char.isDigit tail := hend.stops fun _ => isAlphanum_of_isDigit
    have hfirst := isFirstWord_of_map_toLower hblanks hname
      (stops_append_of_writtenAs hwritten halpha)
    have hword : readName? (blanks ++ (name ++ (args ++ tail))) =
        some (i.opcode.mnemonic, args ++ tail) := by
      refine readName?_eq_some_iff.mpr ⟨name, hfirst, ?_⟩
      rw [hname, String.ofList_toList, Instruction.mnemonic]
    obtain ⟨form, hform, hmakes⟩ := Family.exists_form i.opcode
    obtain ⟨k, hread, hleft⟩ : ∃ k, form.read i.opcode.mnemonic (args ++ tail) = .ok ⟨i, k⟩ ∧
        form.left (args ++ tail) = tail :=
      hmakes.exists_read_iff.mpr ⟨rfl, args, rfl, hwritten, fun _ => hdigit⟩
    simp only [readLine, hword, findForm?_of_mem hmem, hform, hread, hleft,
      checkEnd_eq_ok_iff.mpr hend, Except.map]

/-- The text begins with a word that is no mnemonic, and this is its name. -/
def IsUnknownName (name : String) (text : List Char) : Prop :=
  (∀ o : Opcode, o.mnemonic ≠ name) ∧
    ∃ word rest, IsFirstWord word rest text ∧ name = String.ofList (word.map Char.toLower)

/-- There is a family for every opcode. -/
theorem familyOf_mem_all (o : Opcode) : familyOf o ∈ Family.all := by
  cases o <;> decide

/-- A name is refused exactly if it is the first word of the line and no mnemonic. -/
theorem readLine_eq_unknownOpcode_iff {text : List Char} {name : String} :
    readLine Family.all text = .error (.unknownOpcode name) ↔ IsUnknownName name text := by
  constructor
  · intro h
    obtain ⟨-, hr⟩ | ⟨name', rest, hname, hunknown, hr⟩ | ⟨o, rest, -, -, hread⟩ :=
      readLine_cases Family.all text
    · cases h.symm.trans hr
    · cases h.symm.trans hr
      obtain ⟨word, hword⟩ := readName?_eq_some_iff.mp hname
      exact ⟨fun o => hunknown o (familyOf_mem_all o), word, rest, hword⟩
    · obtain ⟨fault, hfault, hr⟩ | ⟨_, _, _, -, -, -, -, hr⟩ := hread
      · cases h.symm.trans hr
        exact absurd rfl (hfault name)
      · cases h.symm.trans hr
  · rintro ⟨hunknown, word, rest, hword⟩
    have hname := readName?_eq_some_iff.mpr ⟨word, hword⟩
    simp only [readLine, hname, findForm?_eq_none_iff.mpr fun o _ => hunknown o]

/-- A line that holds no instruction and does not begin with an unknown name has a fault of
syntax. -/
theorem exists_isSyntax_of_readLine {text : List Char} (hline : ¬ ∃ i, IsLineOf i text)
    (hname : ¬ ∃ name, IsUnknownName name text) :
    ∃ fault, fault.IsSyntax ∧ readLine Family.all text = .error fault := by
  cases h : readLine Family.all text with
  | ok i => exact absurd ⟨i, (readLine_eq_ok_iff.mp h).2⟩ hline
  | error fault =>
    refine ⟨fault, ?_, rfl⟩
    rintro name rfl
    exact hname ⟨name, readLine_eq_unknownOpcode_iff.mp h⟩

/-- A source of one line that is neither blank nor a comment assembles to what the line is read
as. -/
theorem assembleText_of_first {t : String} {c : Char} (hline : '\n' ∉ t.toList)
    (hfirst : t.toList.find? (!isBlank ·) = some c) (hc : c ≠ ';') :
    assembleText t = ((readLine Family.all t.toList).map
      fun i => { program := #[i] : Assembled }).mapError (.line 1) := by
  obtain ⟨rest, hskip⟩ : ∃ rest, skipBlanks t.toList = c :: rest := by
    rw [List.find?_not_eq_head?_dropWhile] at hfirst
    exact List.head?_eq_some_iff.mp hfirst
  have hne : encode t.toList ≠ [] := by
    intro hnil
    have hencode := List.flatMap_eq_nil_iff.mp hnil c (List.mem_of_find?_eq_some hfirst)
    simp at hencode
  show assembleBytes (.ofFamilies Family.all) t.toUTF8.data.toList = _
  rw [toUTF8_toList, assembleBytes, lines_of_not_mem hne (newline_not_mem_encode hline),
    Assembled.addLines, decodeLine_encode_last hline]
  dsimp only
  rw [addLine_instruction hskip hc, readInstruction_ofFamilies]
  cases readLine Family.all t.toList <;> rfl

/-- A source of one line that is neither blank nor a comment is accepted exactly by the grammar: it
assembles to one instruction if it is blanks, the mnemonic of the instruction in letters of either
case, its operand, blanks, and perhaps a comment. Otherwise the line is refused: for its name
exactly if its first word is no mnemonic, and else for its syntax. -/
theorem assembleText_line {t : String} {c : Char} (hline : '\n' ∉ t.toList)
    (hfirst : t.toList.find? (!isBlank ·) = some c) (hc : c ≠ ';') :
    (∀ a, assembleText t = .ok a ↔ ∃ i, a = { program := #[i] } ∧ IsLineOf i t.toList) ∧
    (∀ name, assembleText t = .error (.line 1 (.unknownOpcode name)) ↔
      IsUnknownName name t.toList) ∧
    ((¬ ∃ i, IsLineOf i t.toList) → (¬ ∃ name, IsUnknownName name t.toList) →
      ∃ fault, fault.IsSyntax ∧ assembleText t = .error (.line 1 fault)) := by
  rw [assembleText_of_first hline hfirst hc]
  refine ⟨fun a => ?_, fun name => ?_, fun hno hknown => ?_⟩
  · rw [mapError_eq_ok_iff, map_eq_ok_iff]
    constructor
    · rintro ⟨i, hread, rfl⟩
      exact ⟨i, rfl, (readLine_eq_ok_iff.mp hread).2⟩
    · rintro ⟨i, rfl, hi⟩
      exact ⟨i, readLine_eq_ok_iff.mpr ⟨familyOf_mem_all i.opcode, hi⟩, rfl⟩
  · rw [mapError_eq_error_iff, ← readLine_eq_unknownOpcode_iff]
    constructor
    · rintro ⟨fault, hread, hline⟩
      cases hline
      exact map_eq_error_iff.mp hread
    · intro hread
      exact ⟨_, map_eq_error_iff.mpr hread, rfl⟩
  · obtain ⟨fault, hfault, hread⟩ := exists_isSyntax_of_readLine hno hknown
    exact ⟨fault, hfault, mapError_eq_error_iff.mpr ⟨fault, map_eq_error_iff.mpr hread, rfl⟩⟩

/-- A mnemonic in mixed case with a numeral glued to it, a literal that a comment's sign and an
escaped quote stand in, a word that goes on behind a mnemonic, and a second operand. -/
theorem assembleText_line_glued :
    ('\n' ∉ "\t PsH-007;x".toList ∧ "\t PsH-007;x".toList.find? (!isBlank ·) = some 'P' ∧
      'P' ≠ ';') ∧
    assembleText "\t PsH-007;x" = .ok { program := #[.pushInt (-7)] } ∧
    assembleText "str\";\\x22\" \r" = .ok { program := #[.pushString ";\""] } ∧
    assembleText "pshX1" = .error (.line 1 (.unknownOpcode "pshx")) ∧
    ∃ fault, fault.IsSyntax ∧ assembleText "psh 1 2" = .error (.line 1 fault) := by
  have hnumeral : IsLineOf (.pushInt (-7)) "\t PsH-007;x".toList :=
    ⟨"\t ".toList, "PsH".toList, [] ++ "-007".toList, ";x".toList, rfl, List.all_eq_true.mp rfl,
      by decide, .int nofun (.minus (by decide) (List.all_eq_true.mp rfl)), [], ";x".toList, rfl,
        nofun, .inr ⟨_, rfl⟩⟩
  have hunits : Escape.Splits [([';'], ';'), ("\\x22".toList, '"')] ";\\x22".toList ";\"".toList :=
    .cons (.plain (by decide)) (.cons (.hex rfl (List.all_eq_true.mp rfl) rfl) Escape.splits_nil)
  have hliteral : IsLineOf (.pushString ";\"") "str\";\\x22\" \r".toList :=
    ⟨[], "str".toList, [] ++ '"' :: (";\\x22".toList ++ ['"']), " \r".toList, rfl, nofun, by decide,
      .text nofun ⟨_, hunits, by decide⟩, " \r".toList, [], rfl, List.all_eq_true.mp rfl, .inl rfl⟩
  have hword : IsUnknownName "pshx" "pshX1".toList :=
    ⟨fun o => by cases o <;> decide, "pshX".toList, "1".toList,
      ⟨by decide, List.all_eq_true.mp rfl, (stops_cons ..).mpr (by decide), [], rfl, nofun⟩,
      by decide⟩
  have htrailing : readLine Family.all "psh 1 2".toList = .error (.trailing ['2']) := by
    decide +kernel
  have hnone : ¬ ∃ i, IsLineOf i "psh 1 2".toList := by
    rintro ⟨i, hi⟩
    cases htrailing.symm.trans (readLine_eq_ok_iff.mpr ⟨familyOf_mem_all i.opcode, hi⟩)
  have hknown : ¬ ∃ name, IsUnknownName name "psh 1 2".toList := by
    rintro ⟨name, hname⟩
    cases htrailing.symm.trans (readLine_eq_unknownOpcode_iff.mpr hname)
  refine ⟨by decide, ?_, ?_, ?_, ?_⟩
  · exact ((assembleText_line (c := 'P') (by decide) (by decide) (by decide)).1 _).mpr
      ⟨_, rfl, hnumeral⟩
  · exact ((assembleText_line (c := 's') (by decide) (by decide) (by decide)).1 _).mpr
      ⟨_, rfl, hliteral⟩
  · exact ((assembleText_line (c := 'p') (by decide) (by decide) (by decide)).2.1 _).mpr hword
  · exact (assembleText_line (c := 'p') (by decide) (by decide) (by decide)).2.2 hnone hknown

end Assembly

end StackMachine
