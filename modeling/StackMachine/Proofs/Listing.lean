import StackMachine.Proofs.Grammar

/-!
# A listing assembles back

`Assembled.text` lists an assembled source: a directive for every parameter, then one instruction a
line. Assembling the listing gives the parameters and the program again, as long as the names of the
parameters can stand in a directive (`PlainName`), and the names of an assembled source always can.

Each line is read back by itself: `readInstruction_text` for the line of an instruction, which is in
the grammar (`isLineOf_text`), whatever the families are as long as they know the mnemonic, and
`readParameter_declaration` for a directive. `addLines_declarations` and `addLines_instructions`
then take the lines in one after the other. The directives come first, and they are read as
directives because no instruction was taken in before them.
-/

namespace StackMachine

open Text

/-! ## The line of an instruction -/

/-- What stands behind the mnemonic in an instruction's written form. -/
def Instruction.operandText (i : Instruction) : List Char :=
  match i.operand with
  | .absent => []
  | .int n => ' ' :: Numeral.decimal n.toInt
  | .text s => ' ' :: Quoted.quoteChars s.toList

/-- An instruction is written as its mnemonic and what stands behind it. -/
theorem Instruction.text_toList (i : Instruction) :
    i.text.toList = i.opcode.mnemonic.toList ++ i.operandText := by
  unfold Instruction.text Instruction.operandText Instruction.mnemonic
  cases i.operand <;> simp [Quoted.quote]

/-- What stands behind the mnemonic is the operand. -/
theorem Instruction.writtenAs_operandText (i : Instruction) :
    i.operand.WrittenAs i.operandText := by
  have hspace : ∀ c ∈ [' '], isBlank c = true := List.forall_mem_singleton.mpr rfl
  unfold Instruction.operandText
  cases i.operand with
  | absent => exact .absent
  | int n => exact .int hspace (Numeral.denotes_decimal n.toInt)
  | text s => exact .text hspace (Quoted.denotes_quoteBody s.toList)

namespace Assembly

/-- The written form of an instruction is a line that holds it. -/
theorem isLineOf_text (i : Instruction) : IsLineOf i i.text.toList := by
  refine ⟨[], i.opcode.mnemonic.toList, i.operandText, [], ?_, List.forall_mem_nil _, ?_,
    i.writtenAs_operandText, [], [], rfl, List.forall_mem_nil _, .inl rfl⟩
  · rw [Instruction.text_toList, List.append_nil, List.nil_append]
  · rw [Instruction.mnemonic, ← List.map_id i.opcode.mnemonic.toList, List.map_map]
    exact List.map_congr_left fun c hc => (i.opcode.mnemonic_small.2 c hc).2

/-- The written form of an instruction is read as that instruction. -/
theorem readInstruction_text {families : List Family} {i : Instruction}
    (h : familyOf i.opcode ∈ families) (line : Nat) :
    readInstruction (.ofFamilies families) line i.text.toList = .ok i := by
  rw [readInstruction_ofFamilies, readLine_eq_ok_iff.mpr ⟨h, isLineOf_text i⟩, Except.mapError]

end Assembly

/-! ## The line of a directive -/

/-- The comment that declares a parameter. -/
def Parameter.declaration (p : Parameter) : List Char :=
  "@param".toList ++ ' ' :: (p.name.toList ++ ' ' :: (Numeral.decimal p.address.toInt ++
    ' ' :: (p.kindWord.toList ++ ' ' :: p.literal.toList)))

/-- A directive is a comment of its own line. The equations of the two definitions compare long
texts, and unfolding by hand does without them. -/
theorem Parameter.directive_toList (p : Parameter) :
    p.directive.toList = ';' :: p.declaration ++ ['\n'] := by
  delta Parameter.directive Parameter.declaration
  simp

namespace Assembly

/-- The word for a parameter's kind names that kind. -/
theorem namesKind_kindWord (p : Parameter) : NamesKind p.kindWord.toList p.value.kind := by
  unfold Parameter.kindWord
  cases p.value with
  | int n => exact .int
  | str s => exact .str

/-- The literal of a parameter is one of its value. -/
theorem beginsWith_literal (p : Parameter) : BeginsWith p.value p.literal.toList := by
  unfold Parameter.literal
  cases p.value with
  | int n =>
    have hliteral := BeginsWith.int (Numeral.denotes_decimal n.toInt) (stops_nil _)
    rwa [List.append_nil, ← String.toList_ofList (l := Numeral.decimal n.toInt)] at hliteral
  | str s =>
    have hliteral := BeginsWith.str [] (Quoted.denotes_quoteBody s.toList)
    rwa [← String.toList_ofList (l := _ :: _)] at hliteral

/-- The comment that declares a parameter is read as that parameter. -/
theorem readParameter_declaration (p : Parameter) (h : PlainName p.name) :
    readParameter p.declaration = .ok (some p) := by
  have hspace : IsGap [' '] := ⟨List.cons_ne_nil _ _, List.forall_mem_singleton.mpr rfl⟩
  have haddress := Numeral.denotes_decimal p.address.toInt
  refine readParameter_eq_some_iff.mpr ⟨_, _, ' ' :: p.literal.toList, ?_,
    ⟨[], [' '], [' '], [' '], _, rfl, List.forall_mem_nil _, hspace, h, hspace, ⟨_, haddress⟩,
      hspace, namesKind_kindWord p⟩, haddress, [' '], _, rfl, hspace, beginsWith_literal p⟩
  delta Parameter.declaration
  simp

/-! ## The names of an assembled source -/

/-- The parameter that a comment declares has a plain name. -/
theorem plainName_of_readParameter {comment : List Char} {p : Parameter}
    (h : readParameter comment = .ok (some p)) : PlainName p.name := by
  obtain ⟨_, _, _, -, hopening, -⟩ := readParameter_eq_some_iff.mp h
  exact hopening.plainName

/-- What taking in a line does: nothing for a blank line or an idle comment, a parameter for a
directive of the header, and an instruction otherwise. -/
theorem addLine_cases {chain : Chain} {line : Nat} {a a' : Assembled} {text : List Char}
    (h : a.addLine chain line text = .ok a') :
    (a' = a ∧ (skipBlanks text = [] ∨ ∃ comment, skipBlanks text = ';' :: comment ∧
      (a.program.isEmpty = true → readParameter comment = .ok none))) ∨
    (∃ comment p, skipBlanks text = ';' :: comment ∧ a.program.isEmpty = true ∧
      readParameter comment = .ok (some p) ∧ a' = { a with header := a.header ++ [p] }) ∨
    (∃ i, readInstruction chain line text = .ok i ∧
      a' = { a with program := a.program.push i }) := by
  unfold Assembled.addLine at h
  split at h
  · rename_i hblank
    cases h
    exact .inl ⟨rfl, .inl hblank⟩
  · rename_i comment hcomment
    split at h
    · rename_i hempty
      split at h
      · cases h
      · rename_i hnone
        cases h
        exact .inl ⟨rfl, .inr ⟨comment, hcomment, fun _ => hnone⟩⟩
      · rename_i p hp
        cases h
        exact .inr (.inl ⟨comment, p, hcomment, hempty, hp, rfl⟩)
    · rename_i hempty
      cases h
      exact .inl ⟨rfl, .inr ⟨comment, hcomment, fun he => absurd he hempty⟩⟩
  · split at h
    · cases h
    · rename_i i hi
      cases h
      exact .inr (.inr ⟨i, hi, rfl⟩)

/-- A line that holds an instruction is taken in as that instruction: it begins with a word, as
neither a blank line nor a comment does. -/
theorem addLine_of_readInstruction {chain : Chain} {line : Nat} {a : Assembled} {text : List Char}
    {i : Instruction} (h : readInstruction chain line text = .ok i) :
    a.addLine chain line text = .ok { a with program := a.program.push i } := by
  unfold Assembled.addLine
  split
  · rename_i hblank
    simp [readInstruction, readName?, hblank] at h
  · rename_i comment hcomment
    simp [readInstruction, readName?, hcomment] at h
  · rw [h]

/-- The parameters of an assembled source have plain names. -/
theorem plainName_of_assembleBytes {chain : Chain} {bytes : List UInt8} {a : Assembled}
    (h : assembleBytes chain bytes = .ok a) : ∀ p ∈ a.header, PlainName p.name := by
  refine addLines_induction (P := fun a => ∀ p ∈ a.header, PlainName p.name) ?_ (by simp) h
  intro a line text a' ha hline
  rcases addLine_cases hline with ⟨rfl, _⟩ | ⟨comment, p, _, _, hp, rfl⟩ | ⟨i, _, rfl⟩
  · exact ha
  · intro q hq
    rcases List.mem_append.1 hq with hq | hq
    · exact ha q hq
    · rw [List.mem_singleton.1 hq]
      exact plainName_of_readParameter hp
  · exact ha

/-! ## The listing -/

/-- The lines of a listing. -/
def Assembled.lineTexts (a : Assembled) : List (List Char) :=
  a.header.map (';' :: Parameter.declaration ·) ++ a.program.toList.map (·.text.toList)

/-- A listing is written line by line. -/
theorem Assembled.text_toList (a : Assembled) :
    a.text.toList = a.lineTexts.flatMap (· ++ ['\n']) := by
  simp [Assembled.text, Header.text, Program.text, Assembled.lineTexts, String.toList_join,
    List.flatMap_map, Parameter.directive_toList]

/-- The written form of an instruction is one line. -/
theorem isLine_text (i : Instruction) : IsLine i.text.toList := by
  refine .of_isVisible fun c hc => ?_
  rw [Instruction.text_toList] at hc
  rcases List.mem_append.1 hc with hc | hc
  · exact isVisible_of_isAlphanum (isAlphanum_of_isAlpha (i.opcode.mnemonic_small.2 c hc).1)
  · unfold Instruction.operandText at hc
    split at hc
    · cases hc
    · rcases List.mem_cons.1 hc with rfl | hc
      · decide
      · exact Numeral.isVisible_of_mem_decimal hc
    · rcases List.mem_cons.1 hc with rfl | hc
      · decide
      · exact Quoted.isVisible_of_mem_quoteChars hc

/-- A directive with a plain name is one line. -/
theorem isLine_declaration {p : Parameter} (h : PlainName p.name) :
    IsLine (';' :: p.declaration) := by
  have hliteral : ∀ c ∈ p.literal.toList, IsVisible c := by
    unfold Parameter.literal
    cases p.value with
    | int n =>
      intro c hc
      exact Numeral.isVisible_of_mem_decimal (by simpa using hc)
    | str s =>
      intro c hc
      exact Quoted.isVisible_of_mem_quoteChars (by simpa [Quoted.quote] using hc)
  have hkeyword : ("@param".toList.all fun c => decide (IsVisible c)) = true := by decide
  delta Parameter.declaration
  refine .of_isVisible fun c hc => ?_
  simp only [List.mem_cons, List.mem_append] at hc
  rcases hc with rfl | hc | rfl | hc | rfl | hc | rfl | hc | rfl | hc
  · decide
  · exact of_decide_eq_true (List.all_eq_true.mp hkeyword c hc)
  · decide
  · exact isVisible_of_isAlphanum (h.2 c hc)
  · decide
  · exact Numeral.isVisible_of_mem_decimal hc
  · decide
  · exact isVisible_of_isAlphanum ((namesKind_kindWord p).letters.2 c hc)
  · decide
  · exact hliteral c hc

/-- Directives are taken in as parameters as long as there is no instruction. -/
theorem addLines_declarations {chain : Chain} {header : Header}
    (h : ∀ p ∈ header, PlainName p.name) (number : Nat) (before : Header) :
    Assembled.addLines chain number { header := before }
      ((header.map (';' :: Parameter.declaration ·)).map (encode · ++ [10])) =
        .ok { header := before ++ header } := by
  induction header generalizing number before with
  | nil => simp [Assembled.addLines]
  | cons p header ih =>
    have hp := h p List.mem_cons_self
    have hline : Assembled.addLine chain number { header := before } (';' :: p.declaration) =
        .ok { header := before ++ [p] } := by
      have hskip : skipBlanks (';' :: p.declaration) = ';' :: p.declaration :=
        skipBlanks_of_stops ((stops_cons ..).2 (by decide))
      simp [Assembled.addLine, hskip, readParameter_declaration p hp]
    simp only [List.map_cons, Assembled.addLines, decodeLine_encode (isLine_declaration hp), hline]
    rw [ih (fun q hq => h q (List.mem_cons_of_mem _ hq))]
    simp

/-- Instructions are taken in one after the other. -/
theorem addLines_instructions {families : List Family} {is : List Instruction}
    (h : ∀ i ∈ is, familyOf i.opcode ∈ families) (number : Nat) (a : Assembled) :
    a.addLines (.ofFamilies families) number ((is.map (·.text.toList)).map (encode · ++ [10])) =
      .ok { a with program := a.program ++ is.toArray } := by
  induction is generalizing number a with
  | nil => simp [Assembled.addLines]
  | cons i is ih =>
    have hline : a.addLine (.ofFamilies families) number i.text.toList =
        .ok { a with program := a.program.push i } :=
      addLine_of_readInstruction (readInstruction_text (h i List.mem_cons_self) number)
    simp only [List.map_cons, Assembled.addLines, decodeLine_encode (isLine_text i), hline]
    rw [ih (fun j hj => h j (List.mem_cons_of_mem _ hj))]
    simp

/-- A listing assembles back with all families that know its instructions. -/
theorem assembleBytes_text {families : List Family} {a : Assembled}
    (hfamilies : ∀ i ∈ a.program, familyOf i.opcode ∈ families)
    (hnames : ∀ p ∈ a.header, PlainName p.name) :
    assembleBytes (.ofFamilies families) a.text.toUTF8.data.toList = .ok a := by
  have hlines : ∀ text ∈ a.lineTexts, IsLine text := by
    intro text ht
    rcases List.mem_append.1 ht with ht | ht
    · obtain ⟨p, hp, rfl⟩ := List.mem_map.1 ht
      exact isLine_declaration (hnames p hp)
    · obtain ⟨i, _, rfl⟩ := List.mem_map.1 ht
      exact isLine_text i
  rw [assembleBytes, toUTF8_toList, Assembled.text_toList, lines_encode hlines, Assembled.lineTexts,
    List.map_append, addLines_append, addLines_declarations hnames]
  simp only [Except.bind]
  rw [addLines_instructions (by simpa using hfamilies)]
  simp

/-- A listing assembles back to what is listed, whatever the words, labels, addresses and strings of
it are, as long as the names of its parameters are plain. The names of an assembled source are, so
the listing of a source that assembles gives the same program and the same parameters again. -/
theorem assembleText_text :
    (∀ (program : Program) (header : Header), (∀ p ∈ header, PlainName p.name) →
      assembleText (header.text ++ program.text) = .ok { program, header }) ∧
    ∀ (source : ByteArray) (a : Assembled), assemble source = .ok a →
      (∀ p ∈ a.header, PlainName p.name) ∧
        assembleText (a.header.text ++ a.program.text) = .ok a := by
  have hback : ∀ a : Assembled, (∀ p ∈ a.header, PlainName p.name) →
      assembleText (a.header.text ++ a.program.text) = .ok a := fun a h =>
    assembleBytes_text (fun i _ => familyOf_mem_all i.opcode) h
  refine ⟨fun program header h => hback ⟨program, header⟩ h, fun source a h => ?_⟩
  have hnames := plainName_of_assembleBytes h
  exact ⟨hnames, hback a hnames⟩

/-- The listing of a header and a program whose strings hold quotes, backslashes, the start of a
comment, control characters and the ends of lines. -/
theorem assembleText_text_strings :
    (∀ p ∈ [{ name := "n1", address := Int64.minValue, value := .str "; @param\r\n" : Parameter }],
      PlainName p.name) ∧
    assembleText
      (Header.text [{ name := "n1", address := Int64.minValue, value := .str "; @param\r\n" }] ++
      Program.text #[.pushString "\"\\\x7f\x01é\u2028;\n", .jump (-1), .stop]) =
        .ok { program := #[.pushString "\"\\\x7f\x01é\u2028;\n", .jump (-1), .stop]
              header :=
                [{ name := "n1", address := Int64.minValue, value := .str "; @param\r\n" }] } :=
  ⟨by decide, assembleText_text.1 _ _ (by decide)⟩

end Assembly

end StackMachine
