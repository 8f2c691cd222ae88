import Mathlib.Data.List.Basic
import StackMachine.Assembly.Source
import StackMachine.Proofs.Literal

/-!
# The lines of a source

Cutting a source into lines commutes with joining sources, as long as the first one is complete
(`lines_append`), and assembling goes through the lines of one part after the other
(`addLines_append`). A text without newlines that is written as a line is decoded as it was written
(`decodeLine_encode`), because no other character's encoding holds the byte of a newline or ends in
that of a carriage return.

Lines are decoded one by one. If every line is UTF-8 then so is the whole source
(`isValidUTF8_of_decodeLine`): what a line loses before it is decoded is its end alone.
-/

namespace StackMachine.Assembly

/-! ## Joining sources -/

/-- The source is empty or ends with a newline. -/
def Complete (bytes : List UInt8) : Prop := ∀ b ∈ bytes.getLast?, b = 10

instance (bytes : List UInt8) : Decidable (Complete bytes) :=
  inferInstanceAs (Decidable (∀ b ∈ bytes.getLast?, b = 10))

/-- A byte in front of bytes goes to their first line. -/
theorem lines_cons (b : UInt8) (bytes : List UInt8) :
    lines (b :: bytes) = consByte b (lines bytes) :=
  rfl

/-- Bytes that are there have a line. -/
theorem lines_ne_nil {bytes : List UInt8} (h : bytes ≠ []) : lines bytes ≠ [] := by
  intro hl
  exact h (by rw [← flatten_lines bytes, hl, List.flatten_nil])

/-- A byte in front of lines changes the first of them at most. -/
theorem consByte_append (b : UInt8) {ls : List (List UInt8)} (h : ls ≠ [])
    (ls' : List (List UInt8)) : consByte b (ls ++ ls') = consByte b ls ++ ls' := by
  cases ls with
  | nil => exact absurd rfl h
  | cons l ls => unfold consByte; split <;> rfl

/-- The lines behind a complete source are cut as if nothing stood before them. -/
theorem lines_append {a : List UInt8} (h : Complete a) (b : List UInt8) :
    lines (a ++ b) = lines a ++ lines b := by
  induction a with
  | nil => rfl
  | cons x a ih =>
    rw [List.cons_append, lines_cons, lines_cons]
    cases a with
    | nil =>
      have hx : x = 10 := h x (by simp)
      subst hx
      rfl
    | cons y a =>
      have hc : Complete (y :: a) := fun z hz => h z (by simpa using hz)
      rw [ih hc, consByte_append x (lines_ne_nil (by simp))]

/-- Bytes without a newline are one line. -/
theorem lines_of_not_mem {line : List UInt8} (hne : line ≠ []) (h : 10 ∉ line) :
    lines line = [line] := by
  induction line with
  | nil => exact absurd rfl hne
  | cons b line ih =>
    rw [List.mem_cons, not_or] at h
    have hb : b ≠ 10 := Ne.symm h.1
    cases line with
    | nil => simp [lines, consByte, hb]
    | cons c line =>
      rw [lines_cons, ih (by simp) h.2]
      simp [consByte, hb]

/-- Bytes without a newline and a newline behind them are one line. -/
theorem lines_line {line : List UInt8} (h : 10 ∉ line) : lines (line ++ [10]) = [line ++ [10]] := by
  induction line with
  | nil => rfl
  | cons b line ih =>
    have hb : b ≠ 10 := fun e => h (e ▸ List.mem_cons_self)
    rw [List.cons_append, lines_cons, ih (fun hm => h (List.mem_cons_of_mem _ hm))]
    simp [consByte, hb]

/-- Lines that are written one after the other are cut again where they were joined. -/
theorem lines_flatMap {ls : List (List UInt8)} (h : ∀ l ∈ ls, 10 ∉ l) :
    lines (ls.flatMap (· ++ [10])) = ls.map (· ++ [10]) := by
  induction ls with
  | nil => rfl
  | cons l ls ih =>
    have hc : Complete (l ++ [10]) := by simp [Complete]
    rw [List.flatMap_cons, lines_append hc, lines_line (h l List.mem_cons_self),
      ih fun l' hl => h l' (List.mem_cons_of_mem _ hl)]
    rfl

/-! ## Taking in a line -/

/-- A blank line changes nothing. -/
theorem addLine_blank {text : List Char} (h : Text.skipBlanks text = []) (chain : Chain)
    (line : Nat) (a : Assembled) : a.addLine chain line text = .ok a := by
  rw [Assembled.addLine, h]

/-- A comment declares a parameter at most, and none behind the first instruction. -/
theorem addLine_comment {text comment : List Char} (h : Text.skipBlanks text = ';' :: comment)
    (chain : Chain) (line : Nat) (a : Assembled) :
    a.addLine chain line text =
      if a.program.isEmpty then
        ((readParameter comment).map fun p =>
          { a with header := a.header ++ p.toList }).mapError (.line line)
      else .ok a := by
  simp only [Assembled.addLine, h]
  cases readParameter comment with
  | error fault => rfl
  | ok p => cases p <;> simp [Except.map, Except.mapError]

/-- Any other line holds an instruction. -/
theorem addLine_instruction {text rest : List Char} {c : Char}
    (h : Text.skipBlanks text = c :: rest) (hc : c ≠ ';') (chain : Chain) (line : Nat)
    (a : Assembled) :
    a.addLine chain line text =
      (readInstruction chain line text).map fun i => { a with program := a.program.push i } := by
  unfold Assembled.addLine
  split
  · rename_i hblank
    cases h.symm.trans hblank
  · rename_i hcomment
    cases h.symm.trans hcomment
    exact absurd rfl hc
  · cases readInstruction chain line text <;> rfl

/-- A line is taken in if it can be decoded, its text is taken in, and so are the lines behind
it. -/
theorem addLines_cons_eq_ok {chain : Chain} {number : Nat} {a a' : Assembled} {l : List UInt8}
    {ls : List (List UInt8)} : a.addLines chain number (l :: ls) = .ok a' ↔
      ∃ text a₁, decodeLine l = some text ∧ a.addLine chain number text = .ok a₁ ∧
        a₁.addLines chain (number + 1) ls = .ok a' := by
  rw [Assembled.addLines]
  cases decodeLine l with
  | none => simp
  | some text => cases h : a.addLine chain number text <;> simp [h]

/-- What every line that is taken in preserves, all of them together preserve. -/
theorem addLines_induction {P : Assembled → Prop} {chain : Chain}
    (step : ∀ a line text a', P a → a.addLine chain line text = .ok a' → P a')
    {number : Nat} {a a' : Assembled} {ls : List (List UInt8)} (ha : P a)
    (h : a.addLines chain number ls = .ok a') : P a' := by
  induction ls generalizing number a with
  | nil =>
    cases h
    exact ha
  | cons l ls ih =>
    obtain ⟨text, a₁, _, hline, hrest⟩ := addLines_cons_eq_ok.1 h
    exact ih (step a number text a₁ ha hline) hrest

/-- Lines are taken in one after the other: what the first ones come to is what the others start
from. -/
theorem addLines_append (chain : Chain) (number : Nat) (a : Assembled)
    (ls ls' : List (List UInt8)) :
    a.addLines chain number (ls ++ ls') =
      (a.addLines chain number ls).bind fun a' => a'.addLines chain (number + ls.length) ls' := by
  induction ls generalizing number a with
  | nil => rfl
  | cons l ls ih =>
    rw [List.cons_append, Assembled.addLines, Assembled.addLines]
    cases decodeLine l with
    | none => rfl
    | some text =>
      dsimp only
      cases a.addLine chain number text with
      | error fault => rfl
      | ok a' =>
        dsimp only
        rw [ih, List.length_cons, Nat.add_right_comm, Nat.add_assoc]

/-! ## Texts as lines -/

/-- The bytes of a text in UTF-8. -/
def encode (text : List Char) : List UInt8 := text.flatMap String.utf8EncodeChar

/-- Texts are encoded one after the other. -/
@[simp] theorem encode_append (a b : List Char) : encode (a ++ b) = encode a ++ encode b := by
  simp [encode]

/-- The bytes of a text are its encoding. -/
theorem toByteArray_encode (text : List Char) : (encode text).toByteArray = text.utf8Encode := rfl

/-- The bytes of a string are those of its characters. -/
theorem toUTF8_toList (s : String) : s.toUTF8.data.toList = encode s.toList := by
  rw [String.toUTF8_eq_toByteArray, ← String.utf8Encode_toList, ← toByteArray_encode,
    List.data_toByteArray]

/-- Bytes denote a string if and only if they are its encoding. -/
theorem fromUTF8?_eq_some_iff {bytes : ByteArray} {s : String} :
    String.fromUTF8? bytes = some s ↔ bytes = s.toByteArray := by
  unfold String.fromUTF8?
  split
  · rename_i h
    rw [Option.some.injEq, ← String.toByteArray_inj]
    rfl
  · rename_i h
    constructor
    · intro hs
      cases hs
    · intro hs
      exact absurd (hs ▸ s.isValidUTF8) h

/-- A byte below 128 stands for its own character and is no part of another one, since every byte of
a longer encoding is 128 or above. -/
theorem toNat_eq_of_mem_utf8EncodeChar {b : UInt8} {c : Char} (hb : b.toNat < 128)
    (h : b ∈ String.utf8EncodeChar c) : b.toNat = c.toNat := by
  have hv : c.val.toNat = c.toNat := rfl
  have hlong : ∀ n, 128 ≤ n → n < 256 → b ≠ UInt8.ofNat n := by
    rintro n h1 h2 rfl
    rw [UInt8.toNat_ofNat', Nat.mod_eq_of_lt h2] at hb
    omega
  unfold String.utf8EncodeChar at h
  dsimp only at h
  rw [hv] at h
  split_ifs at h with h1 h2 h3
  · rw [List.mem_singleton] at h
    subst h
    rw [UInt8.toNat_ofNat', Nat.mod_eq_of_lt (by omega)]
  · simp only [List.mem_cons, List.not_mem_nil, or_false] at h
    rcases h with h | h <;> exact absurd h (hlong _ (by omega) (by omega))
  · simp only [List.mem_cons, List.not_mem_nil, or_false] at h
    rcases h with h | h | h <;> exact absurd h (hlong _ (by omega) (by omega))
  · simp only [List.mem_cons, List.not_mem_nil, or_false] at h
    rcases h with h | h | h | h <;> exact absurd h (hlong _ (by omega) (by omega))

/-- A character whose encoding holds a byte below 128 is that byte's own. -/
theorem eq_ofNat_of_mem_utf8EncodeChar {b : UInt8} {c : Char} (hb : b.toNat < 128)
    (h : b ∈ String.utf8EncodeChar c) : c = Char.ofNat b.toNat := by
  rw [toNat_eq_of_mem_utf8EncodeChar hb h, Char.ofNat_toNat]

/-- The encoding of a text without newlines has no byte of a newline. -/
theorem newline_not_mem_encode {text : List Char} (h : '\n' ∉ text) : 10 ∉ encode text := by
  intro hm
  obtain ⟨c, hc, hb⟩ := List.mem_flatMap.1 hm
  have hn : c = '\n' := eq_ofNat_of_mem_utf8EncodeChar (by decide) hb
  exact h (hn ▸ hc)

/-- The encoding of a text ends in the byte of a carriage return only if the text does. -/
theorem getLast?_encode_ne {text : List Char} (h : text.getLast? ≠ some '\r') :
    (encode text).getLast? ≠ some 13 := by
  intro hl
  rcases List.eq_nil_or_concat text with rfl | ⟨init, c, rfl⟩
  · cases hl
  · rw [List.concat_eq_append, encode_append, List.getLast?_append_of_ne_nil] at hl
    · have hb : 13 ∈ String.utf8EncodeChar c := by
        simpa [encode] using List.mem_of_getLast? hl
      have hr : c = '\r' := eq_ofNat_of_mem_utf8EncodeChar (by decide) hb
      exact h (by simp [hr])
    · simp [encode]

/-- A text that is one line of a source: it has no newline, and no carriage return at its end, where
it would count as a part of the line's end. -/
structure IsLine (text : List Char) : Prop where
  newline : '\n' ∉ text
  carriageReturn : text.getLast? ≠ some '\r'

/-- A text without control characters is one line. -/
theorem IsLine.of_isVisible {text : List Char} (h : ∀ c ∈ text, Text.IsVisible c) :
    IsLine text where
  newline hm := absurd (h _ hm) (by decide)
  carriageReturn hl := absurd (h _ (List.mem_of_getLast? hl)) (by decide)

/-- The encoding of a text denotes that text. -/
theorem fromUTF8?_encode (text : List Char) :
    String.fromUTF8? (encode text).toByteArray = some (String.ofList text) := by
  rw [fromUTF8?_eq_some_iff, toByteArray_encode, String.toByteArray_ofList]

/-- A text without newlines that ends the source is decoded as it was written, carriage returns and
all. -/
theorem decodeLine_encode_last {text : List Char} (h : '\n' ∉ text) :
    decodeLine (encode text) = some text := by
  have hchomp : chomp (encode text) = encode text := by
    have hlast {r : List UInt8} : (encode text).reverse ≠ 10 :: r := by
      intro hr
      refine newline_not_mem_encode h (List.mem_reverse.mp ?_)
      rw [hr]
      exact List.mem_cons_self
    unfold chomp
    split
    · rename_i hr
      exact absurd hr hlast
    · rename_i hr
      exact absurd hr hlast
    · rfl
  rw [decodeLine, hchomp, fromUTF8?_encode, Option.map_some, String.toList_ofList]

/-- A text that is one line is decoded as it was written. -/
theorem decodeLine_encode {text : List Char} (h : IsLine text) :
    decodeLine (encode text ++ [10]) = some text := by
  have hchomp : chomp (encode text ++ [10]) = encode text := by
    have hr := getLast?_encode_ne h.carriageReturn
    rw [List.getLast?_eq_head?_reverse] at hr
    unfold chomp
    rw [List.reverse_append]
    simp only [List.reverse_cons, List.reverse_nil, List.nil_append, List.singleton_append]
    split
    · rename_i heq
      rw [List.cons.injEq] at heq
      simp [heq.2] at hr
    · rename_i heq
      rw [List.cons.injEq] at heq
      rw [← heq.2, List.reverse_reverse]
    · rename_i hne
      exact absurd rfl (hne _)
  rw [decodeLine, hchomp, fromUTF8?_encode, Option.map_some, String.toList_ofList]

/-- A source that is written line by line is cut into those lines. -/
theorem lines_encode {texts : List (List Char)} (h : ∀ text ∈ texts, IsLine text) :
    lines (encode (texts.flatMap (· ++ ['\n']))) = texts.map (encode · ++ [10]) := by
  have henc : encode (texts.flatMap (· ++ ['\n'])) = (texts.map encode).flatMap (· ++ [10]) := by
    rw [encode, List.flatMap_assoc, List.flatMap_map]
    exact List.flatMap_congr fun text _ => encode_append text ['\n']
  rw [henc, lines_flatMap, List.map_map]
  · rfl
  · intro l hl
    obtain ⟨text, ht, rfl⟩ := List.mem_map.1 hl
    exact newline_not_mem_encode (h text ht).newline

/-! ## Lines that are UTF-8 -/

/-- Nothing but the end of a line is cut off before it is decoded. -/
theorem exists_chomp_append (line : List UInt8) :
    ∃ tail ∈ [[], [10], [13, 10]], line = chomp line ++ tail := by
  unfold chomp
  split
  · rename_i r h
    exact ⟨[13, 10], by simp, by simpa using congrArg List.reverse h⟩
  · rename_i r _ h
    exact ⟨[10], by simp, by simpa using congrArg List.reverse h⟩
  · exact ⟨[], by simp, by simp⟩

/-- A line that can be decoded is UTF-8 with its end. -/
theorem isValidUTF8_of_decodeLine_line {line : List UInt8} (h : (decodeLine line).isSome) :
    line.toByteArray.IsValidUTF8 := by
  have hbody : (chomp line).toByteArray.IsValidUTF8 := by
    rw [decodeLine, Option.isSome_map] at h
    obtain ⟨s, hs⟩ := Option.isSome_iff_exists.1 h
    rw [fromUTF8?_eq_some_iff.1 hs]
    exact s.isValidUTF8
  have hend : ∀ tail ∈ [[], [10], [13, 10]], (List.toByteArray tail).IsValidUTF8 := by
    intro tail ht
    simp only [List.mem_cons, List.not_mem_nil, or_false] at ht
    rcases ht with rfl | rfl | rfl
    · exact ⟨[], rfl⟩
    · exact ⟨['\n'], rfl⟩
    · exact ⟨['\r', '\n'], rfl⟩
  obtain ⟨tail, ht, hl⟩ := exists_chomp_append line
  rw [hl, List.toByteArray_append]
  exact hbody.append (hend tail ht)

/-- A source is UTF-8 if every one of its lines is. -/
theorem isValidUTF8_of_decodeLine {bytes : List UInt8}
    (h : ∀ line ∈ lines bytes, (decodeLine line).isSome) : bytes.toByteArray.IsValidUTF8 := by
  have hflat : ∀ ls : List (List UInt8), (∀ line ∈ ls, (decodeLine line).isSome) →
      ls.flatten.toByteArray.IsValidUTF8 := by
    intro ls
    induction ls with
    | nil => intro _; exact ⟨[], rfl⟩
    | cons l ls ih =>
      intro hls
      rw [List.flatten_cons, List.toByteArray_append]
      exact (isValidUTF8_of_decodeLine_line (hls l List.mem_cons_self)).append
        (ih fun l' hl => hls l' (List.mem_cons_of_mem _ hl))
  rw [← flatten_lines bytes]
  exact hflat _ h

/-- Every line of a source that assembles can be decoded. -/
theorem isSome_decodeLine_of_addLines {chain : Chain} {number : Nat} {a a' : Assembled}
    {ls : List (List UInt8)} (h : a.addLines chain number ls = .ok a') :
    ∀ line ∈ ls, (decodeLine line).isSome := by
  induction ls generalizing number a with
  | nil => intro line hm; cases hm
  | cons l ls ih =>
    obtain ⟨text, a₁, hd, _, hrest⟩ := addLines_cons_eq_ok.1 h
    intro line hm
    rcases List.mem_cons.1 hm with rfl | hm
    · simp [hd]
    · exact ih hrest line hm

end StackMachine.Assembly
