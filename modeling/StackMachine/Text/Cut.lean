/-!
# Cutting a text in two

What a user types as `NAME=VALUE` or `ADDRESS:VALUE` is cut at the first separator; later ones
belong to the second part.
-/

namespace StackMachine.Text

/-- The text before the first separator and the text behind it, if there is one. -/
def cut (separator : Char) : List Char → Option (List Char × List Char)
  | [] => none
  | c :: cs =>
    if c = separator then some ([], cs)
    else (cut separator cs).map fun (before, after) => (c :: before, after)

/-- The parts and the separator make up the text, and the separator is not in the first part. -/
theorem cut_eq_some {separator : Char} {cs before after : List Char}
    (h : cut separator cs = some (before, after)) :
    cs = before ++ separator :: after ∧ separator ∉ before := by
  induction cs generalizing before with
  | nil => simp [cut] at h
  | cons c cs ih =>
    rw [cut] at h
    split at h
    · rename_i hc
      simp only [Option.some.injEq, Prod.mk.injEq] at h
      obtain ⟨rfl, rfl⟩ := h
      simp [hc]
    · rename_i hc
      obtain ⟨⟨b, a⟩, hr, he⟩ := Option.map_eq_some_iff.1 h
      simp only [Prod.mk.injEq] at he
      obtain ⟨rfl, rfl⟩ := he
      obtain ⟨h1, h2⟩ := ih hr
      exact ⟨by simp [h1], by simp [h2, Ne.symm hc]⟩

end StackMachine.Text
