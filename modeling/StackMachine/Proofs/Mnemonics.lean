import Mathlib.Data.List.Basic
import StackMachine.Proofs.Directive

/-!
# Mnemonics and what stands behind them

The families have tables of their own, apart from the words that instructions are written with. The
two agree: a family knows the mnemonics of its own opcodes (`Family.exists_form`) and no other names
(`Family.form?_eq_some`), and under each of them it makes the instructions of that opcode
(`Form.Makes`). So no two families know the same name (`Family.eq_of_form?`).

A family says in bytes how much of a line it took, and the line is cut there. `Form.left` is what
the scanners of the operand leave, with no bytes counted. The two come to the same
(`Form.behind?_of_read`): the cut falls where the operand ends, so a line is read as if each reader
handed on what it leaves (`readLine`, `readInstruction_ofFamilies`).
-/

namespace StackMachine

open Text

/-! ## Operands -/

/-- The kind of an operand. -/
def Operand.kind : Operand → OperandKind
  | absent => .absent
  | int _ => .int
  | text _ => .text

/-- Where no operand is wanted there is none. -/
theorem Operand.eq_absent_of_kind {a : Operand} (h : a.kind = .absent) : a = .absent := by
  cases a with
  | absent => rfl
  | int _ | text _ => cases h

/-- Where an integer is wanted there is one. -/
theorem Operand.eq_int_of_kind {a : Operand} (h : a.kind = .int) : ∃ n, a = .int n := by
  cases a with
  | int n => exact ⟨n, rfl⟩
  | absent | text _ => cases h

/-- Where a string is wanted there is one. -/
theorem Operand.eq_text_of_kind {a : Operand} (h : a.kind = .text) : ∃ s, a = .text s := by
  cases a with
  | text s => exact ⟨s, rfl⟩
  | absent | int _ => cases h

/-- How an operand may be written behind a mnemonic. -/
inductive Operand.WrittenAs : Operand → List Char → Prop
  | absent : WrittenAs .absent []
  | int {n : Int64} {blanks numeral : List Char} : (∀ c ∈ blanks, isBlank c = true) →
      Numeral.Denotes numeral n.toInt → WrittenAs (.int n) (blanks ++ numeral)
  | text {s : String} {blanks body : List Char} : (∀ c ∈ blanks, isBlank c = true) →
      Quoted.Denotes body s.toList → WrittenAs (.text s) (blanks ++ '"' :: (body ++ ['"']))

/-- An instruction is given by its opcode and its operand. -/
theorem Instruction.eq_of_opcode_operand {i j : Instruction} (hopcode : i.opcode = j.opcode)
    (hoperand : i.operand = j.operand) : i = j := by
  have hi := i.withOperand?_operand
  rw [hopcode, hoperand, j.withOperand?_operand] at hi
  exact (Option.some.inj hi).symm

/-- The operand of an instruction is of the kind that its opcode wants. -/
theorem Instruction.kind_operand (i : Instruction) : i.operand.kind = i.opcode.operandKind := by
  cases i <;> rfl

/-- Instructions of one opcode have operands of one kind. -/
theorem Instruction.kind_eq_of_opcode {i j : Instruction} (h : i.opcode = j.opcode) :
    i.operand.kind = j.operand.kind := by
  rw [i.kind_operand, j.kind_operand, h]

/-- A mnemonic is a word of small letters. -/
theorem Opcode.mnemonic_small (o : Opcode) :
    o.mnemonic.toList ≠ [] ∧ ∀ c ∈ o.mnemonic.toList, c.isAlpha = true ∧ c.toLower = c := by
  have hne : o.mnemonic.toList ≠ [] := by cases o <;> decide
  have hall : (o.mnemonic.toList.all fun c => c.isAlpha && c.toLower == c) = true := by
    cases o <;> decide
  refine ⟨hne, fun c hc => ?_⟩
  have hsmall := List.all_eq_true.mp hall c hc
  rwa [Bool.and_eq_true, beq_iff_eq] at hsmall

namespace Assembly

/-! ## The tables of the families -/

/-- The family of an opcode. -/
def familyOf : Opcode → Family
  | .label | .jump | .jumpIfNonZero | .jumpIfZero | .stop => .control
  | .add | .subtract | .divide | .multiply => .arith
  | .equal | .greaterThan | .lessThan => .logic
  | .pushInt | .pushString | .storeMemory | .loadMemory | .output => .data
  | .concat | .length | .format => .string

/-- Whatever is read, the form makes an instruction of this opcode with that operand. -/
def Form.Makes (o : Opcode) : Form → Prop
  | bare i => i.opcode = o ∧ i.operand = .absent
  | withInt build => ∀ n, (build n).opcode = o ∧ (build n).operand = .int n
  | withString build => ∀ s, (build s).opcode = o ∧ (build s).operand = .text s

/-- The opcode of what the form makes. -/
def Form.opcode : Form → Opcode
  | bare i => i.opcode
  | withInt build => (build 0).opcode
  | withString build => (build "").opcode

/-- A family knows the mnemonics of its opcodes. -/
theorem Family.exists_form (o : Opcode) :
    ∃ form, (familyOf o).form? o.mnemonic = some form ∧ form.Makes o := by
  cases o <;> refine ⟨_, rfl, ?_⟩ <;>
    simp [Form.Makes, Instruction.opcode, Instruction.operand]

/-- A name that a family knows is the mnemonic of an opcode of that family. -/
theorem Family.form?_eq_some {f : Family} {name : String} {form : Form}
    (h : f.form? name = some form) :
    familyOf form.opcode = f ∧ form.opcode.mnemonic = name ∧ form.Makes form.opcode := by
  cases f <;> simp only [Family.form?] at h <;> split at h <;> cases h <;>
    refine ⟨rfl, rfl, ?_⟩ <;>
    simp [Form.Makes, Form.opcode, Instruction.opcode, Instruction.operand]

/-- No two families know the same name. -/
theorem Family.eq_of_form? {f g : Family} {name : String} {form form' : Form}
    (hf : f.form? name = some form) (hg : g.form? name = some form') : f = g := by
  obtain ⟨hfamily, hname, -⟩ := Family.form?_eq_some hf
  obtain ⟨hfamily', hname', -⟩ := Family.form?_eq_some hg
  rw [← hfamily, ← hfamily', Opcode.mnemonic_injective (hname.trans hname'.symm)]

/-- What the first of the families that knows a name wants behind it. -/
def findForm? (families : List Family) (name : String) : Option Form :=
  families.findSome? (·.form? name)

/-- A mnemonic is found in its own family, wherever this stands. -/
theorem findForm?_of_mem {families : List Family} {o : Opcode} (h : familyOf o ∈ families) :
    findForm? families o.mnemonic = (familyOf o).form? o.mnemonic := by
  obtain ⟨form, hform, -⟩ := Family.exists_form o
  induction families with
  | nil => cases h
  | cons f families ih =>
    rw [findForm?, List.findSome?_cons]
    cases hf : f.form? o.mnemonic with
    | some form' =>
      obtain rfl := Family.eq_of_form? hf hform
      exact hf.symm
    | none =>
      refine ih (List.mem_of_ne_of_mem ?_ h)
      rintro rfl
      rw [hform] at hf
      cases hf

/-- A name is not found exactly if no opcode of the families has it. -/
theorem findForm?_eq_none_iff {families : List Family} {name : String} :
    findForm? families name = none ↔ ∀ o, familyOf o ∈ families → o.mnemonic ≠ name := by
  rw [findForm?, List.findSome?_eq_none_iff]
  constructor
  · rintro h o hmem rfl
    obtain ⟨form, hform, -⟩ := Family.exists_form o
    rw [h _ hmem] at hform
    cases hform
  · intro h f hf
    cases hform : f.form? name with
    | none => rfl
    | some form =>
      obtain ⟨hfamily, hname, -⟩ := Family.form?_eq_some hform
      exact absurd hname (h form.opcode (hfamily ▸ hf))

/-- What is found for a name makes the instructions of the opcode that has the name. -/
theorem exists_of_findForm? {families : List Family} {name : String} {form : Form}
    (h : findForm? families name = some form) :
    ∃ o, familyOf o ∈ families ∧ o.mnemonic = name ∧ form.Makes o := by
  obtain ⟨f, hf, hform⟩ := List.exists_of_findSome?_eq_some h
  obtain ⟨hfamily, hname, hmakes⟩ := Family.form?_eq_some hform
  exact ⟨form.opcode, hfamily ▸ hf, hname, hmakes⟩

/-- A chain of families reads by what is found for the name, and declines a name that is not. -/
theorem Chain.parse_ofFamilies (families : List Family) (name : String) (rest : List Char)
    (line : Nat) :
    (Chain.ofFamilies families).parse name rest line =
      match findForm? families name with
      | none => .ok none
      | some form => ((form.read name rest).map some).mapError (.line line) := by
  induction families with
  | nil => rfl
  | cons f families ih =>
    rw [Chain.ofFamilies, List.map_cons, Chain.parse, findForm?, List.findSome?_cons]
    simp only [Family.parser, Family.read]
    cases f.form? name with
    | none => exact ih
    | some form =>
      dsimp only
      cases form.read name rest <;> rfl

/-! ## Operands by bytes and by what is left -/

/-- What the scanners of the operand leave of a text. -/
def Form.left : Form → List Char → List Char
  | bare _, rest => rest
  | withInt _, rest => ((Numeral.scan (skipBlanks rest)).map (·.2)).getD rest
  | withString _, rest => ((Quoted.scan (skipBlanks rest).tail).map (·.2)).getD rest

section

variable {form : Form} {o : Opcode} {name : String} {rest tail : List Char}

/-- An instruction of the opcode is one that the form makes. -/
theorem Form.Makes.cases (h : form.Makes o) {i : Instruction} (hi : i.opcode = o) :
    (form = .bare i ∧ i.operand = .absent) ∨
    (∃ build n, form = .withInt build ∧ i = build n ∧ i.operand = .int n) ∨
    (∃ build s, form = .withString build ∧ i = build s ∧ i.operand = .text s) := by
  cases form with
  | bare j =>
    have hopcode := hi.trans h.1.symm
    have hkind := Instruction.kind_eq_of_opcode hopcode
    rw [h.2] at hkind
    have hoperand := Operand.eq_absent_of_kind hkind
    obtain rfl := Instruction.eq_of_opcode_operand hopcode (hoperand.trans h.2.symm)
    exact .inl ⟨rfl, hoperand⟩
  | withInt build =>
    have hkind := Instruction.kind_eq_of_opcode (hi.trans (h 0).1.symm)
    rw [(h 0).2] at hkind
    obtain ⟨n, hoperand⟩ := Operand.eq_int_of_kind hkind
    have hmade := Instruction.eq_of_opcode_operand (hi.trans (h n).1.symm)
      (hoperand.trans (h n).2.symm)
    exact .inr (.inl ⟨build, n, rfl, hmade, hoperand⟩)
  | withString build =>
    have hkind := Instruction.kind_eq_of_opcode (hi.trans (h "").1.symm)
    rw [(h "").2] at hkind
    obtain ⟨s, hoperand⟩ := Operand.eq_text_of_kind hkind
    have hmade := Instruction.eq_of_opcode_operand (hi.trans (h s).1.symm)
      (hoperand.trans (h s).2.symm)
    exact .inr (.inr ⟨build, s, rfl, hmade, hoperand⟩)

/-- A form that wants an integer reads one. -/
theorem Form.exists_readInt_of_read {build : Int64 → Instruction} {parsed : Parsed}
    (h : (withInt build).read name rest = .ok parsed) :
    ∃ n k, readInt rest = .ok (some (n, k)) ∧ parsed = ⟨build n, k⟩ := by
  unfold Form.read at h
  dsimp only at h
  split at h
  · cases h
  · rename_i n k hread
    cases h
    exact ⟨n, k, hread, rfl⟩
  · cases h

/-- A form that wants a string reads one. -/
theorem Form.exists_readString_of_read {build : String → Instruction} {parsed : Parsed}
    (h : (withString build).read name rest = .ok parsed) :
    ∃ s k, readString rest = .ok (some (s, k)) ∧ parsed = ⟨build s, k⟩ := by
  unfold Form.read at h
  dsimp only at h
  split at h
  · cases h
  · rename_i s k hread
    cases h
    exact ⟨s, k, hread, rfl⟩
  · cases h

/-- The instruction that is read is the operand's, and the count is that of the operand; behind a
numeral no digit follows. -/
theorem Form.Makes.read_eq_ok_iff (h : form.Makes o) {i : Instruction} {k : Nat} :
    form.read name rest = .ok ⟨i, k⟩ ↔ i.opcode = o ∧
      ∃ args tail, rest = args ++ tail ∧ i.operand.WrittenAs args ∧
        (i.operand.kind = .int → Stops Char.isDigit tail) ∧ k = utf8Length args := by
  constructor
  · intro hread
    cases form with
    | bare j =>
      cases hread
      refine ⟨h.1, [], rest, rfl, ?_, ?_, rfl⟩
      · rw [h.2]
        exact .absent
      · rw [h.2]
        exact nofun
    | withInt build =>
      obtain ⟨n, k, hint, ⟨⟩⟩ := Form.exists_readInt_of_read hread
      obtain ⟨blanks, numeral, tail, rfl, hblanks, hnumeral, hstop, rfl⟩ :=
        readInt_eq_some_iff.mp hint
      obtain ⟨hopcode, hoperand⟩ := h n
      refine ⟨hopcode, blanks ++ numeral, tail, (List.append_assoc ..).symm, ?_,
        fun _ => hstop, rfl⟩
      rw [hoperand]
      exact .int hblanks hnumeral
    | withString build =>
      obtain ⟨s, k, hstring, ⟨⟩⟩ := Form.exists_readString_of_read hread
      obtain ⟨blanks, body, tail, rfl, hblanks, hbody, rfl⟩ := readString_eq_some_iff.mp hstring
      obtain ⟨hopcode, hoperand⟩ := h s
      refine ⟨hopcode, blanks ++ '"' :: (body ++ ['"']), tail, by simp, ?_, ?_, rfl⟩
      · rw [hoperand]
        exact .text hblanks hbody
      · rw [hoperand]
        exact nofun
  · rintro ⟨hopcode, args, tail, rfl, hwritten, hstop, rfl⟩
    obtain ⟨rfl, hoperand⟩ | ⟨build, n, rfl, rfl, hoperand⟩ | ⟨build, s, rfl, rfl, hoperand⟩ :=
      h.cases hopcode
    · rw [hoperand] at hwritten
      cases hwritten
      rfl
    · rw [hoperand] at hwritten hstop
      cases hwritten with
      | @int _ blanks numeral hblanks hnumeral =>
        have hread := readInt_eq_some_iff.mpr
          ⟨blanks, numeral, tail, List.append_assoc .., hblanks, hnumeral, hstop rfl, rfl⟩
        simp only [Form.read, hread]
    · rw [hoperand] at hwritten
      cases hwritten with
      | @text _ blanks body hblanks hbody =>
        have hread : readString (blanks ++ '"' :: (body ++ ['"']) ++ tail) = _ :=
          readString_eq_some_iff.mpr ⟨blanks, body, tail, by simp, hblanks, hbody, rfl⟩
        simp only [Form.read, hread]

/-- The cut behind what is read falls where the scanners of the operand end. -/
theorem Form.behind?_of_read {parsed : Parsed} (h : form.read name rest = .ok parsed) :
    behind? rest parsed.consumed = some (form.left rest) := by
  cases form with
  | bare i =>
    cases h
    exact behind?_zero rest
  | withInt build =>
    obtain ⟨n, k, hread, rfl⟩ := Form.exists_readInt_of_read h
    obtain ⟨blanks, numeral, tail, rfl, hblanks, hnumeral, hstop, rfl⟩ :=
      readInt_eq_some_iff.mp hread
    have hskip : skipBlanks (blanks ++ (numeral ++ tail)) = numeral ++ tail :=
      skipBlanks_append hblanks (hnumeral.stops_append (by decide)
        (fun _ hd => isBlank_of_isAlphanum (isAlphanum_of_isDigit hd)) tail)
    have hscan := Numeral.scan_eq_some_iff.mpr ⟨rfl, ⟨_, hnumeral⟩, hstop⟩
    rw [Form.left, hskip, hscan, ← List.append_assoc, behind?_append]
    rfl
  | withString build =>
    obtain ⟨s, k, hread, rfl⟩ := Form.exists_readString_of_read h
    obtain ⟨blanks, body, tail, rfl, hblanks, ⟨units, hsplits, hquotes⟩, rfl⟩ :=
      readString_eq_some_iff.mp hread
    have hskip : skipBlanks (blanks ++ '"' :: (body ++ '"' :: tail)) =
        '"' :: (body ++ '"' :: tail) :=
      skipBlanks_append hblanks ((stops_cons ..).mpr (by decide))
    have hscan := (Quoted.scan_append_quote_iff hsplits tail).mpr hquotes
    have hcut : blanks ++ '"' :: (body ++ '"' :: tail) =
        (blanks ++ '"' :: (body ++ ['"'])) ++ tail := by simp
    rw [Form.left, hskip, List.tail_cons, hscan, hcut, behind?_append]
    rfl

/-- An instruction is read off a text that begins with its operand, and the rest is left. -/
theorem Form.Makes.exists_read_iff (h : form.Makes o) {i : Instruction} :
    (∃ k, form.read name rest = .ok ⟨i, k⟩ ∧ form.left rest = tail) ↔ i.opcode = o ∧
      ∃ args, rest = args ++ tail ∧ i.operand.WrittenAs args ∧
        (i.operand.kind = .int → Stops Char.isDigit tail) := by
  constructor
  · rintro ⟨k, hread, rfl⟩
    obtain ⟨hopcode, args, tail, rfl, hwritten, hstop, rfl⟩ := h.read_eq_ok_iff.mp hread
    have hleft := Form.behind?_of_read hread
    rw [behind?_append, Option.some.injEq] at hleft
    rw [← hleft]
    exact ⟨hopcode, args, rfl, hwritten, hstop⟩
  · rintro ⟨hopcode, args, rfl, hwritten, hstop⟩
    have hread : form.read name (args ++ tail) = .ok ⟨i, utf8Length args⟩ :=
      h.read_eq_ok_iff.mpr ⟨hopcode, args, tail, rfl, hwritten, hstop, rfl⟩
    have hleft := Form.behind?_of_read hread
    rw [behind?_append, Option.some.injEq] at hleft
    exact ⟨_, hread, hleft.symm⟩

/-- The fault of an operand is one of syntax. -/
theorem Form.isSyntax_of_read {fault : LineFault} (h : form.read name rest = .error fault) :
    fault.IsSyntax := by
  unfold Form.read at h
  split at h
  · cases h
  · split at h
    · rename_i hread
      cases h
      exact isSyntax_of_readInt hread
    · cases h
    · cases h
      nofun
  · split at h
    · rename_i hread
      cases h
      exact isSyntax_of_readString hread
    · cases h
    · cases h
      nofun

end

/-! ## Lines by what is left -/

/-- Reads the instruction of a line, with each reader handing on what it leaves. -/
def readLine (families : List Family) (text : List Char) : Except LineFault Instruction :=
  match readName? text with
  | none => .error .opcodeExpected
  | some (name, rest) =>
    match findForm? families name with
    | none => .error (.unknownOpcode name)
    | some form =>
      match form.read name rest with
      | .error fault => .error fault
      | .ok parsed => (checkEnd (form.left rest)).map fun _ => parsed.instruction

/-- A chain of families reads a line by the bytes that its parsers report as it does by what they
leave, and the number of the line is that of the fault. -/
theorem readInstruction_ofFamilies (families : List Family) (line : Nat) (text : List Char) :
    readInstruction (.ofFamilies families) line text =
      (readLine families text).mapError (.line line) := by
  unfold readInstruction readLine
  cases readName? text with
  | none => rfl
  | some word =>
    obtain ⟨name, rest⟩ := word
    simp only [Chain.parse_ofFamilies]
    cases findForm? families name with
    | none => rfl
    | some form =>
      dsimp only
      cases hread : form.read name rest with
      | error fault => rfl
      | ok parsed =>
        simp only [Except.map, Except.mapError, Form.behind?_of_read hread, Option.getD_some]
        cases checkEnd (form.left rest) <;> rfl

end Assembly

end StackMachine
