import StackMachine.Proofs.Units

/-!
# The scanner and the decoder of a literal go in step

The scanner takes a backslash with one character behind it, the decoder takes an escape with all its
digits, up to nine characters. What the scanner returns is cut into such pairs and characters by
themselves (`Paired`). The decoder goes through it without dividing a pair: digits are no
backslashes, so behind an escape that it accepts the pairs go on (`Paired.of_append`). A backslash
that it comes to is therefore never the last character, and the fault of an unterminated escape
cannot arise (`Paired.unescape_ne_unterminated`).

The other way round, a body that can be decoded is found whole if it has no bare quote. A quote is
bare where an even number of backslashes stands directly before it (`HasBareQuote`). Units end with
backslashes in pairs, if any (`even_backslashes`), so a quote that is a unit by itself, at which the
scanner would stop, is bare.
-/

namespace StackMachine

open Escape

/-! ## The end of a body -/

namespace Quoted

/-- A text of characters that are neither quotes nor backslashes, and of backslashes each with a
character behind it. -/
inductive Paired : List Char → Prop
  | nil : Paired []
  | plain {c : Char} {cs : List Char} : c ≠ '"' → c ≠ '\\' → Paired cs → Paired (c :: cs)
  | escaped {cs : List Char} (c : Char) : Paired cs → Paired ('\\' :: c :: cs)

/-- The scanner returns a body in pairs. -/
theorem paired_of_scan {cs body tail : List Char} (h : scan cs = some (body, tail)) :
    Paired body := by
  fun_induction scan cs generalizing body tail with
  | case1 => cases h
  | case2 cs =>
    cases h
    exact .nil
  | case3 => cases h
  | case4 c cs _ ih =>
    obtain ⟨⟨body, tail⟩, hscan, hpair⟩ := Option.map_eq_some_iff.mp h
    cases hpair
    exact .escaped c (ih hscan)
  | case5 => cases h
  | case6 c cs hquote hpair hlast ih =>
    have hbackslash : c ≠ '\\' := by
      rintro rfl
      cases cs with
      | nil => exact hlast rfl rfl
      | cons d ds => exact hpair d ds rfl rfl
    obtain ⟨⟨body, tail⟩, hscan, hcut⟩ := Option.map_eq_some_iff.mp h
    cases hcut
    exact .plain hquote hbackslash (ih hscan)

/-- Behind a character that is no backslash a text is paired too. -/
theorem Paired.tail {c : Char} {cs : List Char} (h : Paired (c :: cs)) (hc : c ≠ '\\') :
    Paired cs := by
  cases h with
  | plain _ _ htail => exact htail
  | escaped _ _ => exact absurd rfl hc

/-- Behind characters that are no backslashes the pairs go on. -/
theorem Paired.of_append {run rest : List Char} (h : Paired (run ++ rest))
    (hrun : ∀ c ∈ run, c ≠ '\\') : Paired rest := by
  induction run with
  | nil => exact h
  | cons c run ih =>
    obtain ⟨hc, hrun⟩ := List.forall_mem_cons.mp hrun
    exact ih (h.tail hc) hrun

end Quoted

namespace Escape

/-- A hexadecimal escape is not unterminated for its digits. -/
theorem hexChar_ne_unterminated (count : Nat) (digits : List Char) :
    hexChar count digits ≠ .error .unterminated := by
  unfold hexChar
  split
  · split <;> simp
  · simp

/-- Nor is an octal one. -/
theorem octalChar_ne_unterminated (digits : List Char) :
    octalChar digits ≠ .error .unterminated := by
  unfold octalChar
  split
  · split <;> simp
  · simp

/-- An escape with a character behind its backslash is not unterminated. -/
theorem escape_cons_ne_unterminated (name : Char) (cs : List Char) :
    escape (name :: cs) ≠ .error .unterminated := by
  intro h
  rw [escape] at h
  cases hsimple : simple? name with
  | some d =>
    rw [hsimple] at h
    cases h
  | none =>
    rw [hsimple] at h
    cases hwidth : hexWidth? name with
    | some count =>
      rw [hwidth] at h
      exact hexChar_ne_unterminated _ _ (map_eq_error_iff.mp h)
    | none =>
      rw [hwidth] at h
      dsimp only at h
      split at h
      · exact octalChar_ne_unterminated _ (map_eq_error_iff.mp h)
      · cases h

end Escape

/-- A body in pairs is decoded, or has another fault than an escape that its end cuts off. The
decoder takes several characters at a time, so the induction is on the length. -/
theorem Quoted.Paired.unescape_ne_unterminated {body : List Char} (h : Paired body) :
    unescape body ≠ .error .unterminated := by
  induction hn : body.length using Nat.strongRecOn generalizing body with
  | ind n ih =>
    subst hn
    cases h with
    | nil =>
      intro hfault
      cases hfault
    | plain _ hbackslash hrest =>
      rw [unescape_cons_of_ne hbackslash]
      intro hfault
      exact ih _ (Nat.lt_succ_self _) hrest rfl (map_eq_error_iff.mp hfault)
    | @escaped cs name hrest =>
      rw [unescape_backslash]
      cases hescape : escape (name :: cs) with
      | error fault =>
        intro hfault
        cases hfault
        exact escape_cons_ne_unterminated name cs hescape
      | ok read =>
        obtain ⟨d, used⟩ := read
        obtain ⟨name', digits, htake, -, hdigits⟩ := (isUnit_of_escape hescape).exists_eq_cons
        have hcut : name' :: digits ++ (name :: cs).drop used = name :: cs := by
          rw [← htake, List.take_append_drop]
        obtain ⟨-, hcs⟩ := List.cons.inj hcut
        have hbehind : Paired ((name :: cs).drop used) := by
          rw [← hcs] at hrest
          exact hrest.of_append fun c hc => (hdigits c hc).2
        have hshort : ((name :: cs).drop used).length < ('\\' :: name :: cs).length := by
          simp only [List.length_drop, List.length_cons]
          omega
        intro hfault
        exact ih _ hshort hbehind rfl (map_eq_error_iff.mp hfault)

/-! ## Bare quotes -/

namespace Quoted

/-- The number of backslashes at the end of a text. -/
def backslashes (cs : List Char) : Nat := (cs.reverse.takeWhile (· == '\\')).length

/-- The text has a quote that no backslash escapes: those directly before it are in pairs, or there
are none. -/
def HasBareQuote (body : List Char) : Prop :=
  ∃ before after, body = before ++ '"' :: after ∧ backslashes before % 2 = 0

/-- A bare quote is found by its index and the parity of the backslashes before it. -/
theorem hasBareQuote_iff {body : List Char} : HasBareQuote body ↔
    ∃ i, i < body.length ∧ body[i]? = some '"' ∧ backslashes (body.take i) % 2 = 0 := by
  constructor
  · rintro ⟨before, after, rfl, heven⟩
    exact ⟨before.length, by simp, by simp, by simpa using heven⟩
  · rintro ⟨i, -, hquote, heven⟩
    obtain ⟨hi, hquote⟩ := List.getElem?_eq_some_iff.mp hquote
    refine ⟨body.take i, body.drop (i + 1), ?_, heven⟩
    rw [← hquote, ← List.drop_eq_getElem_cons hi, List.take_append_drop]

instance (body : List Char) : Decidable (HasBareQuote body) :=
  decidable_of_iff _ hasBareQuote_iff.symm

/-- Behind another character there is no backslash. -/
theorem backslashes_concat_of_ne {c : Char} (h : c ≠ '\\') (cs : List Char) :
    backslashes (cs ++ [c]) = 0 := by
  simp [backslashes, h]

/-- A pair of backslashes adds two to those before it. -/
theorem backslashes_concat_pair (cs : List Char) :
    backslashes (cs ++ ['\\', '\\']) = backslashes cs + 2 := by
  simp [backslashes]

/-- A unit adds backslashes to the end of a text in pairs, if any. -/
theorem even_backslashes_append {unit : List Char} {c : Char} (h : IsUnit unit c) {cs : List Char}
    (hcs : backslashes cs % 2 = 0) : backslashes (cs ++ unit) % 2 = 0 := by
  obtain ⟨rfl, hc⟩ | ⟨escaped, rfl⟩ := h.cases_head
  · rw [backslashes_concat_of_ne hc]
  · obtain ⟨name, digits, rfl, -, hdigits⟩ := h.exists_eq_cons
    obtain rfl | ⟨digits, d, rfl⟩ := List.eq_nil_or_concat digits
    · by_cases hname : name = '\\'
      · subst hname
        rw [backslashes_concat_pair]
        omega
      · rw [List.append_cons, backslashes_concat_of_ne hname]
    · have hd : d ≠ '\\' := (hdigits d (by simp)).2
      have hlast :
          cs ++ '\\' :: name :: digits.concat d = (cs ++ '\\' :: name :: digits) ++ [d] := by simp
      rw [hlast, backslashes_concat_of_ne hd]

/-- Units end with backslashes in pairs, if any. -/
theorem even_backslashes {units : List (List Char × Char)}
    (h : ∀ u ∈ units, IsUnit u.1 u.2) {cs : List Char}
    (hcs : backslashes cs % 2 = 0) : backslashes (cs ++ units.flatMap (·.1)) % 2 = 0 := by
  induction units generalizing cs with
  | nil =>
    rw [List.flatMap_nil, List.append_nil]
    exact hcs
  | cons u units ih =>
    obtain ⟨hunit, hunits⟩ := List.forall_mem_cons.mp h
    rw [List.flatMap_cons, ← List.append_assoc]
    exact ih hunits (even_backslashes_append hunit hcs)

/-- A quote that is a unit by itself is bare. -/
theorem hasBareQuote_of_mem {units : List (List Char × Char)} {body text : List Char}
    (h : Splits units body text) {u : List Char × Char} (hu : u ∈ units) (hquote : u.1 = ['"']) :
    HasBareQuote body := by
  obtain ⟨hunits, rfl, -⟩ := h
  obtain ⟨before, after, rfl⟩ := List.append_of_mem hu
  refine ⟨before.flatMap (·.1), after.flatMap (·.1), ?_, ?_⟩
  · rw [List.flatMap_append, List.flatMap_cons, hquote]
    rfl
  · have hbefore : ∀ u ∈ before, IsUnit u.1 u.2 := fun u hu => hunits u (List.mem_append_left _ hu)
    have hnil : backslashes [] % 2 = 0 := rfl
    exact even_backslashes hbefore hnil

/-- A body without a bare quote that can be decoded denotes what it is decoded to. -/
theorem denotes_of_unescape {body text : List Char} (h : unescape body = .ok text)
    (hquote : ¬HasBareQuote body) : Denotes body text := by
  obtain ⟨units, hsplits⟩ := unescape_eq_ok_iff.mp h
  exact ⟨units, hsplits, fun u hu hbare => hquote (hasBareQuote_of_mem hsplits hu hbare)⟩

end Quoted

/-! ## Reading a literal -/

/-- No other fault has the wording of an unterminated escape: the others differ from it in their
first words, before what they quote of the text. -/
theorem Escape.Fault.message_eq_unterminated {fault : Escape.Fault}
    (h : fault.message = "unterminated escape sequence") : fault = .unterminated := by
  have hfront {a b : String} (h : a ++ b = "unterminated escape sequence") :
      a.toList <+: "unterminated escape sequence".toList := by
    rw [← h, String.toList_append]
    exact List.prefix_append a.toList b.toList
  cases fault with
  | unterminated => rfl
  | hexDigits count found =>
    change "expected " ++ toString count ++ " hex digits in escape, got '" ++ String.ofList found ++
      "'" = _ at h
    rw [String.append_assoc, String.append_assoc, String.append_assoc] at h
    exact absurd (hfront h) (by decide)
  | codePoint code => exact absurd (hfront h) (by decide)
  | octalDigits found => exact absurd (hfront h) (by decide)
  | octalRange digits =>
    change "octal escape \\" ++ String.ofList digits ++ " out of range" = _ at h
    rw [String.append_assoc] at h
    exact absurd (hfront h) (by decide)
  | unknown name => exact absurd (hfront h) (by decide)

namespace Assembly

open Text

/-- The end of a literal is found where its escapes end. Reading a string never fails for an
unterminated escape, and no fault that it reports has that wording. And if blanks and a literal
stand at the front of a text, and the body of the literal has no bare quote and can be decoded, then
the string that is read is the one that the body is decoded to, and the count is that of the blanks,
of that very body and of the two quotes, behind which the rest of the text stands. -/
theorem readString_aligned (rest : String) :
    (∀ fault, readString rest.toList = .error fault →
      fault ≠ .escape .unterminated ∧ fault.message ≠ "unterminated escape sequence") ∧
    ∀ blanks body tail v : String, rest = blanks ++ "\"" ++ body ++ "\"" ++ tail →
      (∀ c ∈ blanks.toList, isBlank c = true) → ¬Quoted.HasBareQuote body.toList →
      Quoted.unquote body = .ok v →
      readString rest.toList =
        .ok (some (v, blanks.utf8ByteSize + body.utf8ByteSize + 2)) ∧
      behind? rest.toList (blanks.utf8ByteSize + body.utf8ByteSize + 2) = some tail.toList := by
  constructor
  · intro fault h
    obtain ⟨cs, body, tail, escape, hscan, hescape, rfl⟩ := exists_scan_of_readString h
    have hne : escape ≠ .unterminated := by
      rintro rfl
      exact (Quoted.paired_of_scan hscan).unescape_ne_unterminated hescape
    refine ⟨?_, fun hmessage => hne (Escape.Fault.message_eq_unterminated hmessage)⟩
    intro heq
    exact hne (LineFault.escape.inj heq)
  · rintro blanks body tail v rfl hblanks hquote hunquote
    obtain ⟨text, hunescape, rfl⟩ := map_eq_ok_iff.mp hunquote
    have hbody := Quoted.denotes_of_unescape hunescape hquote
    have htext : (blanks ++ "\"" ++ body ++ "\"" ++ tail).toList =
        blanks.toList ++ '"' :: (body.toList ++ '"' :: tail.toList) := by
      simp
    have hcount : blanks.utf8ByteSize + body.utf8ByteSize + 2 =
        utf8Length (blanks.toList ++ '"' :: (body.toList ++ ['"'])) := by
      have hmark : '"'.utf8Size = 1 := rfl
      simp only [utf8Length_append, utf8Length_cons, utf8Length_nil, utf8Length_toList, hmark]
      omega
    have hcut : blanks.toList ++ '"' :: (body.toList ++ '"' :: tail.toList) =
        (blanks.toList ++ '"' :: (body.toList ++ ['"'])) ++ tail.toList := by
      simp
    rw [htext, hcount]
    constructor
    · refine readString_eq_some_iff.mpr
        ⟨blanks.toList, body.toList, tail.toList, rfl, hblanks, ?_, rfl⟩
      rw [String.toList_ofList]
      exact hbody
    · rw [hcut, behind?_append]

/-- A body with an escaped backslash before an escaped quote and with a quote by its number, in
front of another literal; and a body whose hexadecimal escape reaches over the backslash of a pair,
which is refused for its digits. -/
theorem readString_aligned_pairs :
    ((∀ c ∈ "\u3000".toList, isBlank c = true) ∧ ¬Quoted.HasBareQuote "a\\\\\\\"\\x22é".toList ∧
      Quoted.unquote "a\\\\\\\"\\x22é" = .ok "a\\\"\"é") ∧
    readString "\u3000\"a\\\\\\\"\\x22é\" \"b\"".toList = .ok (some ("a\\\"\"é", 3 + 11 + 2)) ∧
    behind? "\u3000\"a\\\\\\\"\\x22é\" \"b\"".toList (3 + 11 + 2) = some " \"b\"".toList ∧
    readString "\"\\x4\\\"\"".toList = .error (.escape (.hexDigits 2 ['4', '\\'])) ∧
    LineFault.message (.escape (.hexDigits 2 ['4', '\\'])) ≠ "unterminated escape sequence" := by
  have hblanks : ∀ c ∈ "\u3000".toList, isBlank c = true := List.all_eq_true.mp (by decide)
  have hquote : ¬Quoted.HasBareQuote "a\\\\\\\"\\x22é".toList := by decide
  have hbody : Quoted.unquote "a\\\\\\\"\\x22é" = .ok "a\\\"\"é" := by decide
  have hread :=
    (readString_aligned "\u3000\"a\\\\\\\"\\x22é\" \"b\"").2 "\u3000" "a\\\\\\\"\\x22é" " \"b\"" _
    (by decide) hblanks hquote hbody
  have hfault : readString "\"\\x4\\\"\"".toList = .error (.escape (.hexDigits 2 ['4', '\\'])) := by
    decide +kernel
  exact ⟨⟨hblanks, hquote, hbody⟩, hread.1, hread.2, hfault, ((readString_aligned _).1 _ hfault).2⟩

end Assembly

end StackMachine
