import Mathlib.Data.List.SplitBy
import Mathlib.Data.List.TakeWhile
import StackMachine.Machine.Effect
import StackMachine.Proofs.Literal
import StackMachine.Proofs.Popping

/-!
# The arguments of a template

A template is counted and rendered by two readers that know nothing of each other: `arity` takes the
doubled percent signs off all percent signs, and `renderPieces` goes through the pieces from the
left. They agree. A run of percent signs takes an argument exactly if it is odd
(`arity_eq_oddRuns`), and so does the left-to-right scan, except that a placeholder may swallow a
percent sign in the place of its verb; such a placeholder is wrong, so the scan stops there. Hence
the arguments that are counted never run out (`renderPieces_ne_noArgument`), and a template that
renders takes all of them, each in one placeholder and in their order (`Filled`,
`Filled.length_eq`).
-/

namespace StackMachine

/-! ## Runs of a character -/

/-- A text is nothing, or a run of one character and a text that does not go on with it. -/
theorem Text.runs_induction {P : List Char → Prop} (nil : P [])
    (run : ∀ c k rest, rest.head? ≠ some c → P rest → P (List.replicate (k + 1) c ++ rest))
    (cs : List Char) : P cs := by
  induction hn : cs.length using Nat.strong_induction_on generalizing cs with
  | _ n ih =>
    subst hn
    cases cs with
    | nil => exact nil
    | cons c cs =>
      have hrun : cs.takeWhile (· == c) = List.replicate (cs.takeWhile (· == c)).length c :=
        List.eq_replicate_iff.mpr ⟨rfl, fun d hd => by simpa using List.mem_takeWhile_imp hd⟩
      have hrest : (cs.dropWhile (· == c)).head? ≠ some c := fun hhead => by
        have := List.head?_dropWhile_not (· == c) cs
        simp [hhead] at this
      have hshort : (cs.dropWhile (· == c)).length < (c :: cs).length :=
        Nat.lt_succ_of_le (List.dropWhile_sublist _).length_le
      have hsplit : c :: cs =
          List.replicate ((cs.takeWhile (· == c)).length + 1) c ++ cs.dropWhile (· == c) := by
        rw [List.replicate_succ, ← hrun, List.cons_append, List.takeWhile_append_dropWhile]
      rw [hsplit]
      exact run c _ _ hrest (ih _ hshort _ rfl)

namespace Template

/-- The number of maximal runs of percent signs that are odd. -/
def oddRuns (cs : List Char) : Nat :=
  (cs.splitBy (· == ·)).countP fun run => run.head? == some '%' && run.length % 2 == 1

/-- A run of one character counts if it is of percent signs and odd. -/
theorem oddRuns_replicate_append {c : Char} {rest : List Char} (h : rest.head? ≠ some c) (k : Nat) :
    oddRuns (List.replicate (k + 1) c ++ rest) =
      (if c = '%' then (k + 1) % 2 else 0) + oddRuns rest := by
  have hchain : (List.replicate (k + 1) c).IsChain fun x y => (x == y) = true :=
    List.isChain_replicate_of_rel _ (beq_self_eq_true c)
  have hsplit : (List.replicate (k + 1) c ++ rest).splitBy (· == ·) =
      List.replicate (k + 1) c :: rest.splitBy (· == ·) := by
    rw [List.splitBy_append, List.splitBy_of_isChain (by simp) hchain, List.singleton_append]
    intro x hx y hy
    have hxc : x = c := List.eq_of_mem_replicate (List.mem_of_mem_getLast? hx)
    refine beq_false_of_ne fun hxy => h ?_
    rw [← hxc, hxy]
    exact hy
  rw [oddRuns, hsplit, List.countP_cons, ← oddRuns, Nat.add_comm]
  congr 1
  by_cases hc : c = '%'
  · rcases Nat.mod_two_eq_zero_or_one (k + 1) with hk | hk <;> simp [hc, hk, List.replicate_succ]
  · simp [hc, List.replicate_succ]

/-! ## Counting -/

/-- Another character is no escape. -/
theorem escapes_cons_of_ne {c : Char} (h : c ≠ '%') (cs : List Char) :
    escapes (c :: cs) = escapes cs := by
  rw [escapes.eq_def]
  split <;> simp_all

/-- One percent sign is no escape. -/
theorem escapes_percent {cs : List Char} (h : cs.head? ≠ some '%') :
    escapes ('%' :: cs) = escapes cs := by
  rw [escapes.eq_def]
  split <;> simp_all

/-- No doubled percent sign is counted twice. -/
theorem two_mul_escapes_le_count (cs : List Char) : 2 * escapes cs ≤ cs.count '%' := by
  fun_induction escapes cs with
  | case1 cs ih =>
    rw [List.count_cons_self, List.count_cons_self]
    omega
  | case2 c cs _ ih => exact Nat.le_trans ih (List.count_le_count_cons ..)
  | case3 => exact Nat.le_refl _

/-- A character takes no argument. -/
theorem arity_cons_of_ne {c : Char} (h : c ≠ '%') (cs : List Char) :
    arity (c :: cs) = arity cs := by
  rw [arity, arity, escapes_cons_of_ne h, List.count_cons_of_ne h]

/-- A doubled percent sign takes no argument. -/
theorem arity_escape (cs : List Char) : arity ('%' :: '%' :: cs) = arity cs := by
  rw [arity, arity, escapes, List.count_cons_self, List.count_cons_self]
  omega

/-- A percent sign that is not doubled takes one. -/
theorem arity_percent {cs : List Char} (h : cs.head? ≠ some '%') :
    arity ('%' :: cs) = arity cs + 1 := by
  have hle := two_mul_escapes_le_count cs
  rw [arity, arity, escapes_percent h, List.count_cons_self]
  omega

/-- Text without percent signs takes none. -/
theorem arity_append_of_not_mem {text : List Char} (h : '%' ∉ text) (cs : List Char) :
    arity (text ++ cs) = arity cs := by
  induction text with
  | nil => rfl
  | cons c text ih =>
    obtain ⟨hc, htext⟩ := not_or.mp (mt List.mem_cons.mpr h)
    rw [List.cons_append, arity_cons_of_ne (Ne.symm hc), ih htext]

/-- A run of percent signs takes an argument if it is odd. -/
theorem arity_replicate_append {rest : List Char} (h : rest.head? ≠ some '%') (k : Nat) :
    arity (List.replicate k '%' ++ rest) = k % 2 + arity rest := by
  induction k using Nat.twoStepInduction with
  | zero => simp
  | one => rw [List.replicate_one, List.singleton_append, arity_percent h, Nat.add_comm]
  | more k ih _ =>
    rw [List.replicate_succ, List.replicate_succ, List.cons_append, List.cons_append, arity_escape,
      ih, Nat.add_mod_right]

/-- The arguments of a template are its odd runs of percent signs. -/
theorem arity_eq_oddRuns (cs : List Char) : arity cs = oddRuns cs := by
  induction cs using Text.runs_induction with
  | nil => rfl
  | run c k rest hrest ih =>
    rw [oddRuns_replicate_append hrest, ← ih]
    by_cases hc : c = '%'
    · subst hc
      rw [arity_replicate_append hrest, if_pos rfl]
    · rw [if_neg hc, Nat.zero_add, arity_append_of_not_mem]
      exact fun hmem => hc (List.eq_of_mem_replicate hmem).symm

/-! ## The pieces of a template -/

/-- A character is a piece. -/
theorem pieces_cons_of_ne {c : Char} (h : c ≠ '%') (cs : List Char) :
    pieces (c :: cs) = .literal c :: pieces cs := by
  rw [pieces, piecesAfter, if_neg h, ← pieces]

/-- An escaped percent sign is a piece. -/
theorem pieces_escape (cs : List Char) : pieces ('%' :: '%' :: cs) = .percent :: pieces cs := by
  rw [pieces, piecesAfter, if_pos rfl, if_pos List.head?_cons, piecesAfter_eq_drop, List.drop_one,
    List.tail_cons]

/-- Any other percent sign begins a field. -/
theorem pieces_percent {cs : List Char} (h : cs.head? ≠ some '%') :
    pieces ('%' :: cs) = .field (readField cs).1 :: pieces (cs.drop (readField cs).2) := by
  rw [pieces, piecesAfter, if_pos rfl, if_neg h, piecesAfter_eq_drop]

/-- What is shown of each piece in turn, the text behind it given, holds of every template. -/
theorem pieces_induction {P : List Char → Prop} (nil : P [])
    (literal : ∀ c cs, c ≠ '%' → P cs → P (c :: cs))
    (escape : ∀ cs, P cs → P ('%' :: '%' :: cs))
    (field : ∀ cs, cs.head? ≠ some '%' → P (cs.drop (readField cs).2) → P ('%' :: cs))
    (cs : List Char) : P cs := by
  induction hn : cs.length using Nat.strong_induction_on generalizing cs with
  | _ n ih =>
    subst hn
    cases cs with
    | nil => exact nil
    | cons c cs =>
      by_cases hc : c = '%'
      · subst hc
        by_cases hhead : cs.head? = some '%'
        · obtain ⟨cs, rfl⟩ := List.head?_eq_some_iff.mp hhead
          exact escape cs (ih _ (by simp only [List.length_cons]; omega) _ rfl)
        · refine field cs hhead (ih _ ?_ _ rfl)
          rw [List.length_drop, List.length_cons]
          omega
      · exact literal c cs hc (ih _ (Nat.lt_succ_self _) _ rfl)

/-- Flags and digits, which no percent sign is among, and then the verb make up a placeholder. -/
theorem exists_eq_append_of_verb {cs : List Char} {c : Char} (h : (readField cs).1.verb = some c) :
    ∃ text, '%' ∉ text ∧ cs = text ++ c :: cs.drop (readField cs).2 := by
  have hverb : ((cs.dropWhile isFlag).dropWhile Char.isDigit).head? = some c := h
  obtain ⟨rest, hrest⟩ := List.head?_eq_some_iff.mp hverb
  have hsplit : cs = (cs.takeWhile isFlag ++ (cs.dropWhile isFlag).takeWhile Char.isDigit) ++
      c :: rest := by
    rw [List.append_assoc, ← hrest, List.takeWhile_append_dropWhile,
      List.takeWhile_append_dropWhile]
  have hused : (readField cs).2 =
      (cs.takeWhile isFlag ++ (cs.dropWhile isFlag).takeWhile Char.isDigit).length + 1 := by
    simp only [readField, hverb, Option.isSome_some, if_true, List.length_append]
  have hdrop : cs.drop (readField cs).2 = rest := by
    rw [hused]
    exact (congrArg (List.drop _) hsplit).trans (List.drop_length_add_append ..)
  refine ⟨_, fun hmem => ?_, hdrop ▸ hsplit⟩
  rcases List.mem_append.mp hmem with hmem | hmem
  · exact absurd (List.mem_takeWhile_imp hmem) (by decide)
  · exact absurd (List.mem_takeWhile_imp hmem) (by decide)

/-- Behind the verb of a right placeholder nothing of its arguments is lost. -/
theorem arity_drop_readField {cs : List Char} {c : Char} {verb : Verb}
    (hverb : (readField cs).1.verb = some c) (hknown : Verb.ofChar? c = some verb) :
    arity (cs.drop (readField cs).2) = arity cs := by
  obtain ⟨text, htext, hsplit⟩ := exists_eq_append_of_verb hverb
  have hc : c ≠ '%' := by
    rintro rfl
    cases hknown
  calc arity (cs.drop (readField cs).2)
    _ = arity (text ++ c :: cs.drop (readField cs).2) := by
      rw [arity_append_of_not_mem htext, arity_cons_of_ne hc]
    _ = arity cs := by rw [← hsplit]

/-! ## Rendering -/

/-- The output of pieces, written out one after the other: a placeholder with a verb takes the next
argument, converts and pads it, and no argument is left over. -/
inductive Filled : List Piece → List Slot → List Char → Prop
  | nil : Filled [] [] []
  | literal {c : Char} {ps : List Piece} {args : List Slot} {out : List Char} :
    Filled ps args out → Filled (.literal c :: ps) args (c :: out)
  | percent {ps : List Piece} {args : List Slot} {out : List Char} :
    Filled ps args out → Filled (.percent :: ps) args ('%' :: out)
  | field {f : Field} {c : Char} {verb : Verb} {arg : Slot} {text : List Char} {ps : List Piece}
      {args : List Slot} {out : List Char} :
    f.verb = some c → Verb.ofChar? c = some verb → verb.convert arg = .ok text →
      Filled ps args out → Filled (.field f :: ps) (arg :: args) (pad f verb.isNumeric text ++ out)

/-- A field with a known verb is filled with the next argument. -/
theorem renderPieces_field {f : Field} {c : Char} {verb : Verb} (hverb : f.verb = some c)
    (hknown : Verb.ofChar? c = some verb) (ps : List Piece) (arg : Slot) (args : List Slot) :
    renderPieces (.field f :: ps) (arg :: args) =
      (verb.convert arg).bind fun text =>
        (renderPieces ps args).map (pad f verb.isNumeric text ++ ·) := by
  simp only [renderPieces, hverb, hknown]
  cases verb.convert arg <;> rfl

/-- What becomes of a placeholder: it has no verb, no argument or an unknown verb, or it takes the
next argument. -/
theorem renderPieces_field_cases (f : Field) (ps : List Piece) (args : List Slot) :
    (f.verb = none ∧ renderPieces (.field f :: ps) args = .error (.malformed .noVerb)) ∨
    (∃ c, f.verb = some c ∧ args = [] ∧
      renderPieces (.field f :: ps) args = .error (.malformed (.noArgument c))) ∨
    (∃ c, f.verb = some c ∧ Verb.ofChar? c = none ∧
      renderPieces (.field f :: ps) args = .error (.malformed (.unknownVerb c))) ∨
    ∃ c verb arg rest, f.verb = some c ∧ Verb.ofChar? c = some verb ∧ args = arg :: rest ∧
      renderPieces (.field f :: ps) args = (verb.convert arg).bind fun text =>
        (renderPieces ps rest).map (pad f verb.isNumeric text ++ ·) := by
  cases hverb : f.verb with
  | none => exact .inl ⟨rfl, by simp only [renderPieces, hverb]⟩
  | some c =>
    cases args with
    | nil => exact .inr (.inl ⟨c, rfl, rfl, by simp only [renderPieces, hverb]⟩)
    | cons arg rest =>
      cases hknown : Verb.ofChar? c with
      | none =>
        exact .inr (.inr (.inl ⟨c, rfl, hknown, by simp only [renderPieces, hverb, hknown]⟩))
      | some verb =>
        exact .inr (.inr (.inr ⟨c, verb, arg, rest, rfl, hknown, rfl,
          renderPieces_field hverb hknown ps arg rest⟩))

/-- Pieces that their arguments fill are rendered, whatever arguments follow. -/
theorem Filled.renderPieces_append {ps : List Piece} {used : List Slot} {out : List Char}
    (h : Filled ps used out) (rest : List Slot) : renderPieces ps (used ++ rest) = .ok out := by
  induction h with
  | nil => rfl
  | literal _ ih => rw [renderPieces, ih, Except.map]
  | percent _ ih => rw [renderPieces, ih, Except.map]
  | field hverb hknown htext _ ih =>
    rw [List.cons_append, renderPieces_field hverb hknown, htext, Except.bind, ih, Except.map]

/-- Pieces that are rendered are filled by the first arguments. -/
theorem exists_filled_of_renderPieces {ps : List Piece} {args : List Slot} {out : List Char}
    (h : renderPieces ps args = .ok out) :
    ∃ used rest, args = used ++ rest ∧ Filled ps used out := by
  induction ps generalizing args out with
  | nil =>
    cases h
    exact ⟨[], args, rfl, .nil⟩
  | cons piece ps ih =>
    cases piece with
    | literal c =>
      obtain ⟨out, hrest, rfl⟩ := map_eq_ok_iff.mp h
      obtain ⟨used, rest, rfl, hfilled⟩ := ih hrest
      exact ⟨used, rest, rfl, hfilled.literal⟩
    | percent =>
      obtain ⟨out, hrest, rfl⟩ := map_eq_ok_iff.mp h
      obtain ⟨used, rest, rfl, hfilled⟩ := ih hrest
      exact ⟨used, rest, rfl, hfilled.percent⟩
    | field f =>
      obtain ⟨-, hr⟩ | ⟨c, -, -, hr⟩ | ⟨c, -, -, hr⟩ |
        ⟨c, verb, arg, args, hverb, hknown, rfl, hr⟩ :=
        renderPieces_field_cases f ps args
      · cases hr.symm.trans h
      · cases hr.symm.trans h
      · cases hr.symm.trans h
      · rw [hr] at h
        cases htext : verb.convert arg with
        | error fault =>
          rw [htext] at h
          cases h
        | ok text =>
          rw [htext] at h
          obtain ⟨out, hrest, rfl⟩ := map_eq_ok_iff.mp h
          obtain ⟨used, rest, rfl, hfilled⟩ := ih hrest
          exact ⟨arg :: used, rest, rfl, hfilled.field hverb hknown htext⟩

/-- Arguments that fill a template are as many as it takes. -/
theorem Filled.length_eq {cs : List Char} {args : List Slot} {out : List Char}
    (h : Filled (pieces cs) args out) : args.length = arity cs := by
  induction cs using pieces_induction generalizing args out with
  | nil =>
    cases h
    rfl
  | literal c cs hc ih =>
    rw [pieces_cons_of_ne hc] at h
    cases h with
    | literal hrest => rw [arity_cons_of_ne hc, ih hrest]
  | escape cs ih =>
    rw [pieces_escape] at h
    cases h with
    | percent hrest => rw [arity_escape, ih hrest]
  | field cs hhead ih =>
    rw [pieces_percent hhead] at h
    cases h with
    | field hverb hknown _ hrest =>
      rw [arity_percent hhead, ← arity_drop_readField hverb hknown, List.length_cons, ih hrest]

/-- An argument that is not converted is of the wrong kind. -/
theorem mismatch_of_convert {verb : Verb} {slot : Slot} {fault : Fault}
    (h : verb.convert slot = .error fault) :
    ∃ expected found, fault = .mismatch expected found := by
  have hint : ∀ {slot fault}, asInt slot = .error fault →
      ∃ expected found, fault = .mismatch expected found := by
    intro slot fault h
    unfold asInt at h
    split at h
    · cases h
    · cases h
      exact ⟨_, _, rfl⟩
  have hstr : ∀ {slot fault}, asString slot = .error fault →
      ∃ expected found, fault = .mismatch expected found := by
    intro slot fault h
    unfold asString at h
    split at h
    · cases h
    · cases h
      exact ⟨_, _, rfl⟩
  cases verb with
  | decimal | hex | upperHex => exact hint (map_eq_error_iff.mp h)
  | string | quoted => exact hstr (map_eq_error_iff.mp h)
  | any => cases h

/-- The arguments that a template takes never run out before it is rendered or found wrong. -/
theorem renderPieces_ne_noArgument {cs : List Char} {args : List Slot} (h : arity cs ≤ args.length)
    (c : Char) : renderPieces (pieces cs) args ≠ .error (.malformed (.noArgument c)) := by
  induction cs using pieces_induction generalizing args with
  | nil => nofun
  | literal d cs hd ih =>
    rw [pieces_cons_of_ne hd, renderPieces, Ne, map_eq_error_iff]
    exact ih (by rwa [arity_cons_of_ne hd] at h)
  | escape cs ih =>
    rw [pieces_escape, renderPieces, Ne, map_eq_error_iff]
    exact ih (by rwa [arity_escape] at h)
  | field cs hhead ih =>
    rw [pieces_percent hhead]
    rw [arity_percent hhead] at h
    obtain ⟨-, hr⟩ | ⟨d, -, rfl, -⟩ | ⟨d, -, -, hr⟩ |
      ⟨d, verb, arg, args, hverb, hknown, rfl, hr⟩ :=
      renderPieces_field_cases (readField cs).1 (pieces (cs.drop (readField cs).2)) args
    · rw [hr]
      nofun
    · cases h
    · rw [hr]
      nofun
    · rw [hr]
      intro hlack
      cases htext : verb.convert arg with
      | error fault =>
        obtain ⟨expected, found, rfl⟩ := mismatch_of_convert htext
        rw [htext] at hlack
        cases hlack
      | ok text =>
        rw [htext] at hlack
        refine ih ?_ (map_eq_error_iff.mp hlack)
        rw [arity_drop_readField hverb hknown]
        exact Nat.le_of_succ_le_succ h

end Template

/-! ## The instruction -/

namespace Stack

/-- Values that are all accepted come off the stack, the top first. -/
theorem popEach_of_le {accept : Slot → Except StackMachine.Fault α} {value : Slot → α}
    (haccept : ∀ slot, accept slot = .ok (value slot)) {n : Nat} {stack : Stack}
    (h : n ≤ stack.length) : ∃ values, popEach accept n stack = (.ok values, stack.drop n) ∧
      values.toList = (stack.take n).map value := by
  induction n with
  | zero => exact ⟨#v[], rfl, rfl⟩
  | succ n ih =>
    obtain ⟨values, hpop, hvalues⟩ := ih (Nat.le_of_succ_le h)
    have hdrop : stack.drop n = stack[n] :: stack.drop (n + 1) := List.drop_eq_getElem_cons h
    refine ⟨values.push (value stack[n]), ?_, ?_⟩
    · rw [popEach, hpop, hdrop]
      dsimp only
      rw [haccept, Except.map]
    · rw [Vector.toList_push, hvalues, List.take_succ_eq_append_getElem h, List.map_append,
        List.map_singleton]

/-- A stack with too few values is emptied. -/
theorem popEach_of_lt {accept : Slot → Except StackMachine.Fault α} {value : Slot → α}
    (haccept : ∀ slot, accept slot = .ok (value slot)) {n : Nat} {stack : Stack}
    (h : stack.length < n) : popEach accept n stack = (.error .stackUnderflow, []) := by
  obtain ⟨slots, _, _, rfl, hslots, -⟩ | ⟨_, _, slot, _, _, -, -, -, hslot, -⟩ | ⟨_, -, -, hpop⟩ :=
    popEach_cases accept n stack
  · have hlength : slots.length = n := hslots.length_eq.trans (Vector.length_toList ..)
    rw [List.length_append] at h
    omega
  · cases (haccept slot).symm.trans hslot
  · exact hpop

end Stack

namespace Template

/-- What a template does on a stack. The percent signs of its doubled ones are no more than all of
them, and it takes one argument for each odd run of percent signs. A stack with fewer values is
emptied and underflows. Any other one loses exactly so many values from its top: no placeholder
lacks an argument, and the values that came off fill the template, in their order and with none left
over, exactly if a string is pushed in their place, which then is the template filled with them. -/
theorem exec_format_fills (template : String) (memory : Memory) (stack : Stack) :
    let cs := template.toList
    let n := arity cs
    let effect := (Instruction.format template).exec memory stack
    2 * escapes cs ≤ cs.count '%' ∧ n = oddRuns cs ∧
    (stack.length < n → effect = ⟨[], .error .stackUnderflow⟩) ∧
    (n ≤ stack.length →
      (∃ s, effect = ⟨some (.str s) :: stack.drop n, .ok .proceed⟩ ∧
        Filled (pieces cs) (stack.take n) s.toList) ∨
      (∃ fault, effect = ⟨stack.drop n, .error (.ofTemplate template fault)⟩ ∧
        (∀ c, fault ≠ .malformed (.noArgument c)) ∧
        ∀ out, ¬Filled (pieces cs) (stack.take n) out)) := by
  intro cs n effect
  have hany : ∀ slot : Slot, (Except.ok slot : Except StackMachine.Fault Slot) = .ok (id slot) :=
    fun _ => rfl
  refine ⟨two_mul_escapes_le_count cs, arity_eq_oddRuns cs, fun hfew => ?_, fun henough => ?_⟩
  · have hpop : Stack.popSlots n stack = (.error .stackUnderflow, []) :=
      Stack.popEach_of_lt hany hfew
    show Effect.after (Stack.popSlots n stack) _ = _
    rw [hpop, Effect.after]
  · obtain ⟨args, hpop, hargs⟩ := Stack.popEach_of_le hany henough
    rw [List.map_id] at hargs
    have hpushed : ∀ s, render template (stack.take n) = .ok s →
        effect = ⟨some (.str s) :: stack.drop n, .ok .proceed⟩ := by
      intro s hrender
      show Effect.after (Stack.popSlots n stack) _ = _
      rw [Stack.popSlots, hpop, Effect.after, hargs, hrender]
      rfl
    have hrefused : ∀ fault, render template (stack.take n) = .error fault →
        effect = ⟨stack.drop n, .error (.ofTemplate template fault)⟩ := by
      intro fault hrender
      show Effect.after (Stack.popSlots n stack) _ = _
      rw [Stack.popSlots, hpop, Effect.after, hargs, hrender]
    have htaken : (stack.take n).length = n := List.length_take_of_le henough
    cases hrender : render template (stack.take n) with
    | ok s =>
      obtain ⟨out, hout, rfl⟩ := map_eq_ok_iff.mp hrender
      obtain ⟨used, rest, hsplit, hfilled⟩ := exists_filled_of_renderPieces hout
      have hnone : rest = [] := by
        have hlen := congrArg List.length hsplit
        rw [htaken, List.length_append, hfilled.length_eq] at hlen
        exact List.length_eq_zero_iff.mp (Nat.left_eq_add.mp hlen)
      refine .inl ⟨String.ofList out, hpushed _ hrender, ?_⟩
      rw [hsplit, hnone, List.append_nil, String.toList_ofList]
      exact hfilled
    | error fault =>
      have hout : renderPieces (pieces cs) (stack.take n) = .error fault :=
        map_eq_error_iff.mp hrender
      refine .inr ⟨fault, hrefused fault hrender, ?_, fun out hfilled => ?_⟩
      · rintro c rfl
        exact renderPieces_ne_noArgument htaken.ge c hout
      · have hok := hfilled.renderPieces_append []
        rw [List.append_nil, hout] at hok
        cases hok

/-- An odd run of three percent signs and a padded string, on a stack with a value too few and on
one with a value more; and a placeholder with a percent sign in the place of its verb. -/
theorem exec_format_fills_runs :
    (Instruction.format "%%%d|%-3s").exec .empty [some (.int 5)] = ⟨[], .error .stackUnderflow⟩ ∧
    (Instruction.format "%%%d|%-3s").exec .empty [some (.int 5), some (.str "ab"), none] =
      ⟨[some (.str "%5|ab "), none], .ok .proceed⟩ ∧
    Filled (pieces "%%%d|%-3s".toList) [some (.int 5), some (.str "ab")] "%5|ab ".toList ∧
    oddRuns "%5%".toList = 2 ∧
    ∃ fault, (Instruction.format "%5%").exec .empty [none, none, none] =
        ⟨[none], .error (.ofTemplate "%5%" fault)⟩ ∧
      ∀ c, fault ≠ .malformed (.noArgument c) := by
  obtain ⟨-, -, hfew, -⟩ := exec_format_fills "%%%d|%-3s" .empty [some (.int 5)]
  obtain ⟨-, -, -, henough⟩ :=
    exec_format_fills "%%%d|%-3s" .empty [some (.int 5), some (.str "ab"), none]
  obtain ⟨-, hruns, -, hwrong⟩ := exec_format_fills "%5%" .empty [none, none, none]
  have hpushed :
      (Instruction.format "%%%d|%-3s").exec .empty [some (.int 5), some (.str "ab"), none] =
      ⟨[some (.str "%5|ab "), none], .ok .proceed⟩ := rfl
  have hrefused : (Instruction.format "%5%").exec .empty [none, none, none] =
      ⟨[none], .error (.invalidFormat "%5%" (.unknownVerb '%'))⟩ := rfl
  refine ⟨hfew (by decide), hpushed, ?_, hruns.symm.trans (by decide), ?_⟩
  · obtain ⟨s, heffect, hfilled⟩ | ⟨fault, heffect, -⟩ := henough (by decide)
    · rw [hpushed] at heffect
      cases heffect
      exact hfilled
    · rw [hpushed] at heffect
      cases heffect
  · obtain ⟨s, heffect, -⟩ | ⟨fault, heffect, hargument, -⟩ := hwrong (by decide)
    · rw [hrefused] at heffect
      cases heffect
    · exact ⟨fault, heffect, hargument⟩

end Template

end StackMachine
