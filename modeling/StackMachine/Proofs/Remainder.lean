import StackMachine.Proofs.Grammar

/-!
# What a reader leaves

A reader of operands tells how many bytes it has read, and what stands behind these bytes is asked
whether the line ends there. The count is exact: it ends between two characters, the bytes before it
are blanks and one literal of the value that is read, and they decide both the value and the count,
whatever stands behind them (`ReadsExactly`). A numeral alone goes on where a digit follows.

So the text behind the count (`slice?`) is there for every family, and a line is accepted if and
only if this text passes for its end (`counted_exact`): the rest of a line is never taken for an
empty one.
-/

namespace StackMachine

namespace Text

/-- The slice of a string behind its first `k` bytes, if they end between two characters. -/
def slice? (text : String) (k : Nat) : Option String :=
  (text.pos? ⟨k⟩).map fun p => (text.sliceFrom p).copy

/-- The slice behind the bytes of the front of a string is the rest of it. -/
theorem slice?_append (front tail : String) :
    slice? (front ++ tail) front.utf8ByteSize = some tail := by
  have hvalid : (⟨front.utf8ByteSize⟩ : String.Pos.Raw).IsValid (front ++ tail) :=
    String.Pos.Raw.isValid_iff_exists_append.mpr ⟨front, tail, rfl, rfl⟩
  have hpos : (front ++ tail).pos? ⟨front.utf8ByteSize⟩ = some (String.Pos.ofEqAppend rfl) := by
    rw [String.pos?, String.Slice.pos?,
      dif_pos (String.Pos.Raw.isValidForSlice_eq_true_iff.mpr hvalid.toSlice)]
    rfl
  rw [slice?, hpos, Option.map_some, (String.Pos.splits_ofEqAppend rfl).copy_sliceFrom_eq]

/-- There is no slice behind bytes that end inside a character or behind the string. -/
theorem slice?_of_not_isValid {text : String} {k : Nat}
    (h : ¬(⟨k⟩ : String.Pos.Raw).IsValid text) : slice? text k = none := by
  have hslice : ¬(⟨k⟩ : String.Pos.Raw).isValidForSlice text.toSlice = true := by
    rw [String.Pos.Raw.isValidForSlice_eq_true_iff]
    simpa using h
  rw [slice?, String.pos?, String.Slice.pos?, dif_neg hslice]
  rfl

/-- The characters of the slice are those behind the bytes. -/
theorem slice?_eq (text : String) (k : Nat) :
    slice? text k = (behind? text.toList k).map String.ofList := by
  by_cases hvalid : (⟨k⟩ : String.Pos.Raw).IsValid text
  · obtain ⟨front, tail, rfl, hk⟩ := String.Pos.Raw.isValid_iff_exists_append.mp hvalid
    obtain rfl : k = front.utf8ByteSize := congrArg String.Pos.Raw.byteIdx hk
    rw [slice?_append, String.toList_append, ← utf8Length_toList, behind?_append, Option.map_some,
      String.ofList_toList]
  · have hnone : behind? text.toList k = none := by
      refine Option.eq_none_iff_forall_ne_some.mpr fun tail htail => hvalid ?_
      obtain ⟨front, hcut, rfl⟩ := behind?_eq_some_iff.mp htail
      refine String.Pos.Raw.isValid_iff_exists_append.mpr
        ⟨String.ofList front, String.ofList tail, ?_, ?_⟩
      · rw [← String.ofList_append, ← hcut, String.ofList_toList]
      · rw [String.rawEndPos, ← utf8Length_toList, String.toList_ofList]
    rw [slice?_of_not_isValid hvalid, hnone, Option.map_none]

end Text

namespace Assembly

open Text

variable {α : Type}

/-! ## Literals -/

/-- The first `k` bytes of a text are all that a reader needs to read `v`. They are an operand as it
may be written, and before any other text that may follow they are read as `v` again, with the same
count. -/
structure ReadsExactly (read : List Char → Except LineFault (Option (α × Nat)))
    (operand : α → Operand) (mayFollow : List Char → Prop) (rest : String) (v : α) (k : Nat) :
    Prop where
  le : k ≤ rest.utf8ByteSize
  boundary : (⟨k⟩ : String.Pos.Raw).IsValid rest
  literal : ∃ front : String, rest.toByteArray.extract 0 k = front.toByteArray ∧
    (operand v).WrittenAs front.toList
  decides : ∀ other text : String, mayFollow other.toList →
    text.toByteArray = rest.toByteArray.extract 0 k ++ other.toByteArray →
    read text.toList = .ok (some (v, k))

/-- A reader reads exactly an operand that it reads before every text that may follow. -/
theorem readsExactly_of_append {read : List Char → Except LineFault (Option (α × Nat))}
    {operand : α → Operand} {mayFollow : List Char → Prop} {rest : String} {v : α}
    {front tail : List Char} (hrest : rest.toList = front ++ tail)
    (hwritten : (operand v).WrittenAs front)
    (hread : ∀ other, mayFollow other →
      read (front ++ other) = .ok (some (v, utf8Length front))) :
    ReadsExactly read operand mayFollow rest v (utf8Length front) := by
  have hsplit : rest = String.ofList front ++ String.ofList tail := by
    rw [← String.ofList_append, ← hrest, String.ofList_toList]
  have hcount : utf8Length front = (String.ofList front).utf8ByteSize := by
    rw [← utf8Length_toList, String.toList_ofList]
  have hfront : rest.toByteArray.extract 0 (utf8Length front) =
      (String.ofList front).toByteArray := by
    rw [hcount, hsplit, String.toByteArray_append]
    exact ByteArray.extract_append_eq_left rfl
  refine ⟨?_, ?_, ⟨String.ofList front, hfront, ?_⟩, ?_⟩
  · rw [hcount, hsplit, String.utf8ByteSize_append]
    exact Nat.le_add_right ..
  · exact String.Pos.Raw.isValid_iff_exists_append.mpr ⟨_, _, hsplit, congrArg _ hcount⟩
  · rwa [String.toList_ofList]
  · intro other text hother htext
    rw [hfront, ← String.toByteArray_append, String.toByteArray_inj] at htext
    rw [htext, String.toList_append, String.toList_ofList]
    exact hread _ hother

/-- An integer is read exactly, unless a digit comes to follow its numeral. -/
theorem readsExactly_readInt {rest : String} {n : Int64} {k : Nat}
    (h : readInt rest.toList = .ok (some (n, k))) :
    ReadsExactly readInt .int (Stops Char.isDigit) rest n k := by
  obtain ⟨blanks, numeral, tail, hrest, hblanks, hnumeral, -, rfl⟩ := readInt_eq_some_iff.mp h
  have hcut : rest.toList = (blanks ++ numeral) ++ tail := by rw [hrest, List.append_assoc]
  refine readsExactly_of_append hcut (.int hblanks hnumeral) fun other hother => ?_
  exact readInt_eq_some_iff.mpr
      ⟨blanks, numeral, other, List.append_assoc .., hblanks, hnumeral, hother, rfl⟩

/-- A string is read exactly: its literal ends itself. -/
theorem readsExactly_readString {rest s : String} {k : Nat}
    (h : readString rest.toList = .ok (some (s, k))) :
    ReadsExactly readString .text (fun _ => True) rest s k := by
  obtain ⟨blanks, body, tail, hrest, hblanks, hbody, rfl⟩ := readString_eq_some_iff.mp h
  have hcut : rest.toList = (blanks ++ '"' :: (body ++ ['"'])) ++ tail := by simp [hrest]
  refine readsExactly_of_append hcut (.text hblanks hbody) fun other _ => ?_
  exact readString_eq_some_iff.mpr ⟨blanks, body, other, by simp, hblanks, hbody, rfl⟩

/-! ## Families -/

/-- What a parser of a family claims is read off the form that the family has for the name. -/
theorem Family.parse_eq_some {f : Family} {name : String} {rest : List Char} {line : Nat}
    {parsed : Parsed} (h : f.parser.parse name rest line = .ok (some parsed)) :
    ∃ form, f.form? name = some form ∧ form.read name rest = .ok parsed := by
  have hread : f.read name rest = .ok (some parsed) := mapError_eq_ok_iff.mp h
  unfold Family.read at hread
  split at hread
  · cases hread
  · rename_i form hform
    obtain ⟨parsed', hparsed, heq⟩ := map_eq_ok_iff.mp hread
    cases heq
    exact ⟨form, hform, hparsed⟩

/-- What is left of a line behind an instruction decides whether the line holds it. -/
theorem readInstruction_of_parse {f : Family} {families : List Family} {name : String} {line : Nat}
    {text rest tail : List Char} {parsed : Parsed} (hmem : f ∈ families)
    (hname : readName? text = some (name, rest))
    (hparse : f.parser.parse name rest line = .ok (some parsed))
    (htail : behind? rest parsed.consumed = some tail) :
    readInstruction (.ofFamilies families) line text =
      ((checkEnd tail).map fun _ => parsed.instruction).mapError (.line line) := by
  obtain ⟨form, hform, hread⟩ := Family.parse_eq_some hparse
  obtain ⟨rfl, rfl, -⟩ := Family.form?_eq_some hform
  have hleft := (Form.behind?_of_read hread).symm.trans htail
  rw [Option.some.injEq] at hleft
  rw [readInstruction_ofFamilies]
  simp only [readLine, hname, findForm?_of_mem hmem, hform, hread, hleft]

/-- The counts of the readers are exact. An integer that is read with the count `k` is blanks and
one numeral of its value in the first `k` bytes, which end between two characters of the text; and
these bytes are read as that integer with that count before any text that begins with no digit. The
same holds of a string and its literal, before any text at all. So there is a slice behind the count
of whatever instruction the parser of a family reads, and in every line and every chain that has the
family it is this slice that is asked for the end of the line. -/
theorem counted_exact (rest : String) :
    (∀ n k, readInt rest.toList = .ok (some (n, k)) →
      ReadsExactly readInt .int (Stops Char.isDigit) rest n k) ∧
    (∀ s k, readString rest.toList = .ok (some (s, k)) →
      ReadsExactly readString .text (fun _ => True) rest s k) ∧
    ∀ (f : Family) name line i k, f.parser.parse name rest.toList line = .ok (some ⟨i, k⟩) →
      ∃ tail, slice? rest k = some tail ∧
        ∀ (families : List Family) (text : List Char), f ∈ families →
          readName? text = some (name, rest.toList) →
          readInstruction (.ofFamilies families) line text =
            ((checkEnd tail.toList).map fun _ => i).mapError (.line line) := by
  refine ⟨fun _ _ => readsExactly_readInt, fun _ _ => readsExactly_readString, ?_⟩
  intro f name line i k hparse
  obtain ⟨form, -, hread⟩ := Family.parse_eq_some hparse
  have htail := Form.behind?_of_read hread
  refine ⟨String.ofList (form.left rest.toList), ?_, fun families text hmem hname => ?_⟩
  · rw [slice?_eq, htail, Option.map_some]
  · rw [String.toList_ofList]
    exact readInstruction_of_parse hmem hname hparse htail

/-- A numeral behind a wide blank, with a wide character behind it or a comment instead; a literal
with a wide character in it, with another one behind it; and a line with a second operand, which the
slice behind the count of the first one shows. -/
theorem counted_exact_wide :
    readInt "\u3000-07é".toList = .ok (some (-7, 6)) ∧
    readInt "\u3000-07;1".toList = .ok (some (-7, 6)) ∧
    readString "\"é\\n\"".toList = .ok (some ("é\n", 6)) ∧
    readString "\"é\\n\"\"a\"".toList = .ok (some ("é\n", 6)) ∧
    Family.data.parser.parse "psh" "\u3000-07é".toList 4 = .ok (some ⟨.pushInt (-7), 6⟩) ∧
    ∃ tail, slice? "\u3000-07é" 6 = some tail ∧
      readInstruction .standard 4 "PSH\u3000-07é".toList =
        ((checkEnd tail.toList).map fun _ => .pushInt (-7)).mapError (.line 4) := by
  have hint : readInt "\u3000-07é".toList = .ok (some (-7, 6)) := by decide +kernel
  have hstring : readString "\"é\\n\"".toList = .ok (some ("é\n", 6)) := by decide +kernel
  have hfamily : Family.data.parser.parse "psh" "\u3000-07é".toList 4 =
      .ok (some ⟨.pushInt (-7), 6⟩) := by
    decide +kernel
  have hname : readName? "PSH\u3000-07é".toList = some ("psh", "\u3000-07é".toList) := by
    decide +kernel
  have hwide := counted_exact "\u3000-07é"
  obtain ⟨tail, hslice, hline⟩ := hwide.2.2 _ _ _ _ _ hfamily
  refine ⟨hint, ?_, hstring, ?_, hfamily, tail, hslice, hline Family.all _ (by decide) hname⟩
  · exact (hwide.1 _ _ hint).decides ";1" _ ((stops_cons ..).mpr (by decide)) (by decide +kernel)
  · exact ((counted_exact _).2.1 _ _ hstring).decides "\"a\"" _ trivial (by decide +kernel)

end Assembly

end StackMachine
