import StackMachine.Json.Listing
import StackMachine.Proofs.JsonText

/-!
# Programs and parameters are read back from JSON

A program, a header and an assembled source each have one JSON value (`toJson`), and `ofJson?` takes
from it what it was made of: `Instruction.ofJson?_toJson` for an instruction, whatever operand its
opcode wants, and `Value.ofJson?_toJson` for a value, whose kind is that of the JSON value alone.
The values are all `Plain`, so they are read back from their texts too, in either layout
(`Json.parse?_compact`, `Json.parse?_pretty`).
-/

namespace StackMachine

open Json

/-- Items that are read back one by one are read back as a list. -/
theorem mapM_map_of_forall {α : Type} {write : α → Json} {read : Json → Option α}
    (h : ∀ a, read (write a) = some a) (items : List α) :
    (items.map write).mapM read = some items := by
  induction items with
  | nil => rfl
  | cons a items ih => simp [List.mapM_cons, h, ih]

/-! ## Instructions -/

/-- The tag of an opcode is read as the opcode. -/
theorem Opcode.ofTag?_tag (o : Opcode) : ofTag? o.tag = some o := by cases o <;> rfl

/-- What stands under `arg` for an operand. -/
def Operand.arg? : Operand → Option Json
  | absent => none
  | int n => some (.ofWord n)
  | text s => some (.ofString s)

/-- The operand of an instruction is read back from its argument. -/
theorem Instruction.readOperand?_arg? (i : Instruction) :
    i.opcode.readOperand? i.operand.arg? = some i.operand := by
  cases i <;>
    simp [opcode, operand, Operand.arg?, Opcode.readOperand?, Opcode.operandKind, Json.word?,
      Json.text?, ofWord, ofString, Numeral.word?_toInt]

/-- An instruction is read back from its tag and its argument. -/
theorem Instruction.ofParts?_tag (i : Instruction) :
    ofParts? i.opcode.tag i.operand.arg? = some i := by
  simp [ofParts?, Opcode.ofTag?_tag, readOperand?_arg?]

/-- An instruction is read back from its object. -/
theorem Instruction.ofJson?_toJson (i : Instruction) : ofJson? i.toJson = some i := by
  have hparts := i.ofParts?_tag
  rw [toJson]
  cases h : i.operand <;> rw [h] at hparts <;>
    simpa [ofJson?, ofMembers, Operand.members, Operand.arg?, valuesOf, Json.tag?, ofString]
      using hparts

/-- A program is read back from its array. -/
theorem Program.ofJson?_toJson (p : Program) : ofJson? p.toJson = some p := by
  simp [ofJson?, toJson, mapM_map_of_forall Instruction.ofJson?_toJson]

/-! ## Parameters -/

/-- The kind of a value is that of its JSON value, so an integer and its digits are kept apart. -/
theorem Value.ofJson?_toJson (v : Value) : ofJson? v.toJson = some v := by
  cases v <;> simp [ofJson?, toJson, ofWord, ofString, Numeral.word?_toInt]

/-- A parameter is read back from its object. -/
theorem Parameter.ofJson?_toJson (p : Parameter) : ofJson? p.toJson = some p := by
  simp [ofJson?, toJson, ofMembers, valuesOf, ofParts?, Json.text?, Json.word?, ofString, ofWord,
    Numeral.word?_toInt, Value.ofJson?_toJson]

/-- A header is read back from its array. -/
theorem Header.ofJson?_toJson (h : Header) : ofJson? h.toJson = some h :=
  mapM_map_of_forall Parameter.ofJson?_toJson h

/-! ## Texts -/

/-- An object of plain members is plain. -/
theorem Json.Plain.ofMembers {members : List (String × Json)} (h : ∀ m ∈ members, Plain m.2) :
    Plain (.ofMembers members) := by
  refine .object ?_ ?_ <;> intro m hm <;> obtain ⟨member, hmember, rfl⟩ := List.mem_map.mp hm
  · rfl
  · exact h member hmember

/-- An array of values that are all written alike. -/
theorem Json.Plain.map {α : Type} {write : α → Json} (h : ∀ a, Plain (write a)) (items : List α) :
    Plain (.array (items.map write)) := by
  refine .array fun item hitem => ?_
  obtain ⟨a, -, rfl⟩ := List.mem_map.mp hitem
  exact h a

/-- The members for an operand are plain. -/
theorem Operand.plain_members (a : Operand) : ∀ m ∈ a.members, Plain m.2 := by
  cases a with
  | absent => exact List.forall_mem_nil _
  | int n => exact List.forall_mem_singleton.mpr (.int _)
  | text s => exact List.forall_mem_singleton.mpr (.string s)

/-- Instructions are written as plain documents. -/
theorem Instruction.plain_toJson (i : Instruction) : Plain i.toJson :=
  .ofMembers (List.forall_mem_cons.mpr ⟨.string _, i.operand.plain_members⟩)

/-- Programs are written as plain documents. -/
theorem Program.plain_toJson (p : Program) : Plain p.toJson := .map Instruction.plain_toJson _

/-- Values are written as plain documents. -/
theorem Value.plain_toJson (v : Value) : Plain v.toJson := by
  cases v with
  | int n => exact .int _
  | str s => exact .string s

/-- Parameters are written as plain documents. -/
theorem Parameter.plain_toJson (p : Parameter) : Plain p.toJson := by
  refine .ofMembers ?_
  simp only [List.forall_mem_cons]
  exact ⟨.string _, .int _, p.value.plain_toJson, List.forall_mem_nil _⟩

/-- Headers are written as plain documents. -/
theorem Header.plain_toJson (h : Header) : Plain h.toJson := .map Parameter.plain_toJson _

/-- An assembled program is written as a plain document. -/
theorem Assembly.Assembled.plain_toJson (a : Assembled) : Plain a.toJson := by
  refine .ofMembers ?_
  simp only [List.forall_mem_cons]
  exact ⟨a.header.plain_toJson, a.program.plain_toJson, List.forall_mem_nil _⟩

/-- A program and a header are read back from their texts without blanks, so an integer and the
string of its digits are not taken for each other. The text of an assembled source on several lines
is an object of two members, and the header and the program are read back from them. -/
theorem Assembly.Assembled.json_readsBack (p : Program) (h : Header) :
    Program.parseJson? p.toJson.compact = some p ∧
    Header.parseJson? h.toJson.compact = some h ∧
    ∃ params program,
      Json.parse? (toJson { program := p, header := h }).pretty =
        some (.ofMembers [("params", params), ("program", program)]) ∧
      Header.ofJson? params = some h ∧ Program.ofJson? program = some p := by
  refine ⟨?_, ?_, h.toJson, p.toJson, parse?_pretty (plain_toJson _), h.ofJson?_toJson,
    p.ofJson?_toJson⟩
  · rw [Program.parseJson?, parse?_compact p.plain_toJson]
    exact p.ofJson?_toJson
  · rw [Header.parseJson?, parse?_compact h.plain_toJson]
    exact h.ofJson?_toJson

end StackMachine
