import StackMachine.Proofs.Grammar

/-!
# Chains of families

The parsers of a chain are asked in turn, and the first one that knows a mnemonic decides, also if
it finds the operand at fault. No mnemonic is in two families, so which family decides does not
depend on the order: the name alone says which one it is (`findForm?_of_mem`), and families before
it or behind it never see the operand.

Some of the families therefore read what all of them read, and can only refuse more: a mnemonic of a
family that they lack (`Lacks`). This is lifted from the word of a line (`findForm?_of_subset`) to
the line, to all lines and to the source (`assembleBytes_of_subset`). Chains of the same families
lack nothing of each other, and so assemble alike (`assembleBytes_chain`).
-/

namespace StackMachine.Assembly

/-! ## One mnemonic -/

variable {families families' : List Family}

/-- The name is a mnemonic of a family that is in `families'` and not in `families`. -/
def Lacks (families families' : List Family) (name : String) : Prop :=
  ∃ o : Opcode, o.mnemonic = name ∧ familyOf o ∈ families' ∧ familyOf o ∉ families

/-- Some of the families find for a name what all of them find, or nothing for want of a family. -/
theorem findForm?_of_subset (h : families ⊆ families') (name : String) :
    findForm? families' name = findForm? families name ∨
      Lacks families families' name ∧ findForm? families name = none := by
  by_cases hknown : ∃ o, familyOf o ∈ families' ∧ o.mnemonic = name
  · obtain ⟨o, hmem', rfl⟩ := hknown
    by_cases hmem : familyOf o ∈ families
    · left
      rw [findForm?_of_mem hmem, findForm?_of_mem hmem']
    · right
      refine ⟨⟨o, rfl, hmem', hmem⟩, findForm?_eq_none_iff.mpr fun o' ho' hname => hmem ?_⟩
      rwa [← Opcode.mnemonic_injective hname]
  · left
    have hunknown' : ∀ o, familyOf o ∈ families' → o.mnemonic ≠ name :=
      fun o ho hname => hknown ⟨o, ho, hname⟩
    rw [findForm?_eq_none_iff.mpr hunknown',
      findForm?_eq_none_iff.mpr fun o ho => hunknown' o (h ho)]

/-! ## Lines and sources -/

/-- Some of the families read a line as all of them do, or refuse its name for want of a family. -/
theorem readLine_of_subset (h : families ⊆ families') (text : List Char) :
    readLine families' text = readLine families text ∨
      ∃ name, Lacks families families' name ∧
        readLine families text = .error (.unknownOpcode name) := by
  unfold readLine
  cases readName? text with
  | none => exact .inl rfl
  | some found =>
    obtain ⟨name, rest⟩ := found
    dsimp only
    rcases findForm?_of_subset h name with hsame | ⟨hlacks, hnone⟩
    · rw [hsame]
      exact .inl rfl
    · rw [hnone]
      exact .inr ⟨name, hlacks, rfl⟩

/-- A line does the same with some of the families as with all of them, or is refused for want of a
family. -/
theorem addLine_of_subset (h : families ⊆ families') (line : Nat) (a : Assembled)
    (text : List Char) :
    a.addLine (.ofFamilies families') line text = a.addLine (.ofFamilies families) line text ∨
      ∃ name, Lacks families families' name ∧
        a.addLine (.ofFamilies families) line text = .error (.line line (.unknownOpcode name)) := by
  unfold Assembled.addLine
  split
  · exact .inl rfl
  · exact .inl rfl
  · rw [readInstruction_ofFamilies, readInstruction_ofFamilies]
    rcases readLine_of_subset h text with hsame | ⟨name, hlacks, hunknown⟩
    · rw [hsame]
      exact .inl rfl
    · rw [hunknown]
      exact .inr ⟨name, hlacks, rfl⟩

/-- Up to the first line that is refused for want of a family, both chains take in the same
lines. -/
theorem addLines_of_subset (h : families ⊆ families') (number : Nat) (a : Assembled)
    (ls : List (List UInt8)) :
    a.addLines (.ofFamilies families') number ls = a.addLines (.ofFamilies families) number ls ∨
      ∃ line name, Lacks families families' name ∧
        a.addLines (.ofFamilies families) number ls =
          .error (.line line (.unknownOpcode name)) := by
  induction ls generalizing number a with
  | nil => exact .inl rfl
  | cons l ls ih =>
    rw [Assembled.addLines, Assembled.addLines]
    cases decodeLine l with
    | none => exact .inl rfl
    | some text =>
      dsimp only
      rcases addLine_of_subset h number a text with hsame | ⟨name, hlacks, hunknown⟩
      · rw [hsame]
        cases a.addLine (.ofFamilies families) number text with
        | error e => exact .inl rfl
        | ok a => exact ih (number + 1) a
      · rw [hunknown]
        exact .inr ⟨number, name, hlacks, rfl⟩

/-- Some of the families assemble a source as all of them do, or stop at the first mnemonic of a
family that they lack. -/
theorem assembleBytes_of_subset (h : families ⊆ families') (bytes : List UInt8) :
    assembleBytes (.ofFamilies families') bytes = assembleBytes (.ofFamilies families) bytes ∨
      ∃ line name, Lacks families families' name ∧
        assembleBytes (.ofFamilies families) bytes = .error (.line line (.unknownOpcode name)) :=
  addLines_of_subset h 1 {} (lines bytes)

/-- The order of the families does not matter, nor that one comes twice: chains of the same families
give the same answer for every source, the same program and parameters or the same error at the same
line. A source that assembles with a chain assembles to the same with every chain that has its
families. -/
theorem assembleBytes_chain (families families' : List Family) (bytes : List UInt8) :
    ((∀ f, f ∈ families ↔ f ∈ families') →
      assembleBytes (.ofFamilies families) bytes = assembleBytes (.ofFamilies families') bytes) ∧
    (families ⊆ families' → ∀ a, assembleBytes (.ofFamilies families) bytes = .ok a →
      assembleBytes (.ofFamilies families') bytes = .ok a) := by
  constructor
  · intro hsame
    have hsubset : families ⊆ families' := fun f hf => (hsame f).mp hf
    rcases assembleBytes_of_subset hsubset bytes with heq | ⟨_, _, ⟨o, -, hmem', hnot⟩, -⟩
    · exact heq.symm
    · exact absurd ((hsame (familyOf o)).mpr hmem') hnot
  · intro hsubset a ha
    rcases assembleBytes_of_subset hsubset bytes with heq | ⟨_, _, -, herror⟩
    · rw [heq, ha]
    · cases ha.symm.trans herror

/-- Two orders of the same families, one of them twice: both find the operand of the last line at
fault. A source that assembles with one family assembles with all. -/
theorem assembleBytes_chain_shuffled :
    let source := encode "psh 4\nLEN ; of it\nfmt 5".toList
    assembleBytes (.ofFamilies [.data, .string]) source =
      .error (.line 3 (.stringExpected "fmt")) ∧
    assembleBytes (.ofFamilies [.string, .data, .string]) source =
      .error (.line 3 (.stringExpected "fmt")) ∧
    assembleBytes (.ofFamilies [.data]) (encode "psh 4".toList) =
      .ok { program := #[.pushInt 4] } ∧
    assembleBytes .standard (encode "psh 4".toList) = .ok { program := #[.pushInt 4] } := by
  intro source
  have hfault : assembleBytes (.ofFamilies [.data, .string]) source =
      .error (.line 3 (.stringExpected "fmt")) := by
    decide +kernel
  have hone : assembleBytes (.ofFamilies [.data]) (encode "psh 4".toList) =
      .ok { program := #[.pushInt 4] } := by
    decide +kernel
  have hsame : ∀ f, f ∈ [Family.data, .string] ↔ f ∈ [Family.string, .data, .string] := by
    intro f
    cases f <;> decide
  obtain ⟨horder, -⟩ := assembleBytes_chain [.data, .string] [.string, .data, .string] source
  obtain ⟨-, hmore⟩ := assembleBytes_chain [.data] Family.all (encode "psh 4".toList)
  exact ⟨hfault, (horder hsame).symm.trans hfault, hone, hmore (by decide) _ hone⟩

end StackMachine.Assembly
