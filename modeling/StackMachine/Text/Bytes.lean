/-!
# Texts by their bytes

A reader says how far it has come in bytes of UTF-8, and the rest of the text is cut off there. A
cut that does not fall between two characters leaves nothing: `behind?` is defined exactly where
some characters of the front have that many bytes together (`behind?_eq_some_iff`).
-/

namespace StackMachine.Text

/-- The number of bytes of the text in UTF-8. -/
def utf8Length (cs : List Char) : Nat := cs.foldr (fun c n => c.utf8Size + n) 0

/-- The text behind its first `k` bytes, if these end between two characters. -/
def behind? : List Char → Nat → Option (List Char)
  | cs, 0 => some cs
  | [], _ + 1 => none
  | c :: cs, k + 1 => if c.utf8Size ≤ k + 1 then behind? cs (k + 1 - c.utf8Size) else none

/-- An empty text has no bytes. -/
@[simp] theorem utf8Length_nil : utf8Length [] = 0 := rfl

/-- The bytes of the first character and those of the others. -/
@[simp] theorem utf8Length_cons (c : Char) (cs : List Char) :
    utf8Length (c :: cs) = c.utf8Size + utf8Length cs := rfl

/-- The bytes of two texts. -/
@[simp] theorem utf8Length_append (as bs : List Char) :
    utf8Length (as ++ bs) = utf8Length as + utf8Length bs := by
  induction as with
  | nil => rw [List.nil_append, utf8Length_nil, Nat.zero_add]
  | cons a as ih => rw [List.cons_append, utf8Length_cons, utf8Length_cons, ih, Nat.add_assoc]

/-- The bytes of a string are those of its characters. -/
theorem utf8Length_toList (s : String) : utf8Length s.toList = s.utf8ByteSize := by
  have hsize : ∀ cs : List Char, utf8Length cs = (String.ofList cs).utf8ByteSize := by
    intro cs
    induction cs with
    | nil => rfl
    | cons c cs ih =>
      rw [utf8Length_cons, ← List.singleton_append, String.ofList_append,
        String.utf8ByteSize_append, ← ih]
      simp
  rw [hsize, String.ofList_toList]

/-- Behind no bytes stands the whole text. -/
@[simp] theorem behind?_zero (cs : List Char) : behind? cs 0 = some cs := by
  cases cs <;> rfl

/-- Behind the bytes of the front of a text stands the rest of it. -/
@[simp] theorem behind?_append (front tail : List Char) :
    behind? (front ++ tail) (utf8Length front) = some tail := by
  induction front with
  | nil => exact behind?_zero tail
  | cons c front ih =>
    have hpos := c.utf8Size_pos
    obtain ⟨k, hk⟩ : ∃ k, c.utf8Size + utf8Length front = k + 1 :=
      ⟨c.utf8Size + utf8Length front - 1, by omega⟩
    have hrest : k + 1 - c.utf8Size = utf8Length front := by omega
    rw [utf8Length_cons, hk, List.cons_append, behind?, if_pos (by omega), hrest, ih]

/-- A text is cut where some characters of its front end. -/
theorem behind?_eq_some_iff {cs tail : List Char} {k : Nat} :
    behind? cs k = some tail ↔ ∃ front, cs = front ++ tail ∧ utf8Length front = k := by
  constructor
  · intro h
    fun_induction behind? cs k with
    | case1 cs => exact ⟨[], Option.some.inj h, rfl⟩
    | case2 k => cases h
    | case3 c cs k hle ih =>
      obtain ⟨front, rfl, hfront⟩ := ih h
      exact ⟨c :: front, rfl, by rw [utf8Length_cons, hfront]; omega⟩
    | case4 c cs k hle => cases h
  · rintro ⟨front, rfl, rfl⟩
    exact behind?_append front tail

example : behind? "é;".toList 2 = some [';'] ∧ behind? "é;".toList 1 = none ∧
    behind? "é;".toList 4 = none := by decide

end StackMachine.Text
