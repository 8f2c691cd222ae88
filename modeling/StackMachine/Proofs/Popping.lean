import Mathlib.Data.List.Forall2
import StackMachine.Stack

/-!
# Taking values off the stack

There are two ways to take values off: `popEach` takes a fixed number, `drain` as many as a visitor
asks for. Each is described once, by all that it can come to. Popping finds its values, or meets one
that is refused, or runs out of values, whichever comes first from the top (`popEach_cases`).
Draining shows the visitor the values from the top with the ordinals one, two, three, until it has
enough, refuses a value, or has seen them all; the calls are observed by a visitor that notes them
(`recording`, `drainFrom_recording`).

Popping is draining into an array of fixed size. The visitor that fills the array (`fill`) writes at
the index before the ordinal of a value and has enough when the array is full, so that it never
writes outside of it (`popInto_eq`).
-/

namespace StackMachine.Stack

/-! ## Popping a fixed number -/

/-- The slots are accepted, as these values. -/
abbrev Accepted (accept : Slot → Except Fault α) (slots : List Slot) (values : List α) : Prop :=
  List.Forall₂ (fun slot value => accept slot = .ok value) slots values

/-- What popping can come to: all values are accepted, or one is refused and the values above it are
accepted, or the stack is too short and all of it accepted. -/
theorem popEach_cases (accept : Slot → Except Fault α) (n : Nat) (stack : Stack) :
    (∃ slots values rest, stack = slots ++ rest ∧ Accepted accept slots values.toList ∧
      popEach accept n stack = (.ok values, rest)) ∨
    (∃ above values slot rest fault, stack = above ++ slot :: rest ∧ above.length < n ∧
      Accepted accept above values ∧ accept slot = .error fault ∧
      popEach accept n stack = (.error fault, rest)) ∨
    (∃ values, stack.length < n ∧ Accepted accept stack values ∧
      popEach accept n stack = (.error .stackUnderflow, [])) := by
  induction n with
  | zero => exact .inl ⟨[], #v[], stack, rfl, .nil, rfl⟩
  | succ n ih =>
    obtain ⟨slots, values, rest, rfl, hslots, hpop⟩ |
      ⟨above, values, slot, rest, fault, rfl, hlt, habove, hslot, hpop⟩ |
      ⟨values, hlt, hstack, hpop⟩ := ih
    · have hlength : slots.length = n := hslots.length_eq.trans (Vector.length_toList ..)
      cases rest with
      | nil =>
        rw [List.append_nil] at hpop ⊢
        refine .inr (.inr ⟨values.toList, by omega, hslots, ?_⟩)
        rw [popEach, hpop]
      | cons slot rest =>
        cases hslot : accept slot with
        | ok value =>
          refine .inl ⟨slots ++ [slot], values.push value, rest, by simp, ?_, ?_⟩
          · rw [Vector.toList_push]
            exact List.rel_append hslots (.cons hslot .nil)
          · rw [popEach, hpop]
            simp only [hslot, Except.map]
        | error fault =>
          refine .inr
            (.inl ⟨slots, values.toList, slot, rest, fault, rfl, by omega, hslots, hslot, ?_⟩)
          rw [popEach, hpop]
          simp only [hslot, Except.map]
    · refine .inr (.inl ⟨above, values, slot, rest, fault, rfl, by omega, habove, hslot, ?_⟩)
      rw [popEach, hpop]
    · refine .inr (.inr ⟨values, by omega, hstack, ?_⟩)
      rw [popEach, hpop]

/-! ## Draining -/

/-- What a visitor was shown, and what it said. -/
structure Call where
  ordinal : Nat
  slot : Slot
  verdict : Verdict

/-- The visitor, noting its calls. -/
def recording (visit : σ → Nat → Slot → σ × Verdict) (state : σ × List Call) (ordinal : Nat)
    (slot : Slot) : (σ × List Call) × Verdict :=
  let (next, verdict) := visit state.1 ordinal slot
  ((next, state.2 ++ [⟨ordinal, slot, verdict⟩]), verdict)

/-- The verdicts on the values of a stack that settle how draining it ends: the first one that asks
for no more, or all of them. -/
inductive Settled (stack : Stack) : List Verdict → Except Fault Unit → Prop
  | enough (n : Nat) : Settled stack (List.replicate n .more ++ [.enough]) (.ok ())
  | refuse (n : Nat) (fault : Fault) :
      Settled stack (List.replicate n .more ++ [.refuse fault]) (.error fault)
  | underflow : Settled stack (List.replicate stack.length .more) (.error .stackUnderflow)

/-- A slot in front after which more is wanted. -/
theorem Settled.more {stack : Stack} {verdicts : List Verdict} {outcome : Except Fault Unit}
    (h : Settled stack verdicts outcome) (slot : Slot) :
    Settled (slot :: stack) (.more :: verdicts) outcome := by
  cases h with
  | enough n => exact .enough (n + 1)
  | refuse n fault => exact .refuse (n + 1) fault
  | underflow => exact .underflow

/-- The calls made in draining a stack show its values from the top, with rising ordinals; what was
not shown is left; and the verdicts settle the outcome. -/
structure Traces (stack : Stack) (ordinal : Nat) (calls : List Call) (drained : Drained σ) :
    Prop where
  shown : calls.map (fun c => (c.slot, c.ordinal)) = (stack.take calls.length).zipIdx ordinal
  rest : drained.rest = stack.drop calls.length
  settled : Settled stack (calls.map (·.verdict)) drained.outcome

/-- Noting the calls does not change what a visitor does, and the calls noted are those of the
drain. -/
theorem drainFrom_recording (visit : σ → Nat → Slot → σ × Verdict) (state : σ) (log : List Call)
    (ordinal : Nat) (stack : Stack) :
    ∃ calls, drainFrom (recording visit) (state, log) ordinal stack =
        { drainFrom visit state ordinal stack with
          state := ((drainFrom visit state ordinal stack).state, log ++ calls) } ∧
      Traces stack ordinal calls (drainFrom visit state ordinal stack) := by
  induction stack generalizing state log ordinal with
  | nil => exact ⟨[], by simp [drainFrom], rfl, rfl, .underflow⟩
  | cons slot rest ih =>
    rw [drainFrom, drainFrom, recording]
    cases hvisit : visit state ordinal slot with
    | mk next verdict =>
      cases verdict with
      | more =>
        obtain ⟨calls, hrecord, hshown, hrest, hsettled⟩ :=
          ih next (log ++ [⟨ordinal, slot, .more⟩]) (ordinal + 1)
        refine ⟨⟨ordinal, slot, .more⟩ :: calls, ?_, ?_, hrest, hsettled.more slot⟩
        · simp [hrecord]
        · simp [hshown]
      | enough => exact ⟨[⟨ordinal, slot, .enough⟩], rfl, rfl, rfl, .enough 0⟩
      | refuse fault => exact ⟨[⟨ordinal, slot, .refuse fault⟩], rfl, rfl, rfl, .refuse 0 fault⟩

example :
    drain
      (fun seen ordinal slot =>
        (seen ++ [(ordinal, slot)], if ordinal < 2 then .more else .enough))
      [] [some (.int 10), none, some (.int 30)] =
      ⟨[(1, some (.int 10)), (2, none)], [some (.int 30)], .ok ()⟩ := rfl

/-! ## Popping by draining -/

/-- Writes a value at the index before its ordinal, if that is an index of the array. -/
def write? (values : Vector α n) (ordinal : Nat) (value : α) : Option (Vector α n) :=
  if h : 0 < ordinal ∧ ordinal ≤ n then
    some (values.set (ordinal - 1) value (Nat.sub_one_lt_of_le h.1 h.2))
  else none

/-- The visitor that writes the values it accepts into an array of `n`, until that is full. The
array is lost with the first write outside of it. -/
def fill (accept : Slot → Except Fault α) (n : Nat) (values : Option (Vector α n)) (ordinal : Nat)
    (slot : Slot) : Option (Vector α n) × Verdict :=
  match accept slot with
  | .error fault => (values, .refuse fault)
  | .ok value => (values.bind fun values => write? values ordinal value,
      if ordinal < n then .more else .enough)

/-- Pops as many values as the array has room for by draining the stack into it; `none` if a write
has fallen outside of the array. -/
def popInto (accept : Slot → Except Fault α) (array : Vector α n) (stack : Stack) :
    Option (Except Fault (Vector α n) × Stack) :=
  if n = 0 then some (.ok array, stack)
  else
    let drained := drain (fill accept n) (some array) stack
    drained.state.map fun values => (drained.outcome.map fun _ => values, drained.rest)

/-- A value that is accepted is written into its place. -/
theorem fill_of_accept {accept : Slot → Except Fault α} {slot : Slot} {value : α}
    (h : accept slot = .ok value) {i : Nat} (hi : i < n) (values : Vector α n) :
    fill accept n (some values) (i + 1) slot =
      (some (values.set i value hi), if i + 1 < n then .more else .enough) := by
  have hwrite : 0 < i + 1 ∧ i + 1 ≤ n := ⟨Nat.succ_pos i, hi⟩
  simp [fill, h, write?, hwrite]

/-- What is written behind the first `i` values is the next of them. -/
theorem take_set {i : Nat} (hi : i < n) (values : Vector α n) (value : α) :
    (values.set i value hi).toList.take (i + 1) = values.toList.take i ++ [value] := by
  have hlength : i < (values.toList.set i value).length := by simpa using hi
  rw [Vector.toList_set, List.take_succ_eq_append_getElem hlength,
    List.take_set_of_le (Nat.le_refl i), List.getElem_set_self]

/-- Values that leave room in the array are written one behind the other, and more are asked for. -/
theorem drainFrom_fill {accept : Slot → Except Fault α} {slots : List Slot} {accepted : List α}
    (h : Accepted accept slots accepted) (values : Vector α n) {i : Nat}
    (hroom : i + slots.length < n) (rest : Stack) :
    ∃ values' : Vector α n,
      values'.toList.take (i + slots.length) = values.toList.take i ++ accepted ∧
      drainFrom (fill accept n) (some values) (i + 1) (slots ++ rest) =
        drainFrom (fill accept n) (some values') (i + slots.length + 1) rest := by
  induction h generalizing values i with
  | nil => exact ⟨values, by simp, rfl⟩
  | @cons slot value slots accepted hslot _ ih =>
    rw [List.length_cons] at hroom
    have hi : i < n := by omega
    have hmore : i + 1 < n := by omega
    obtain ⟨values', htake, hdrain⟩ := ih (values.set i value hi) (i := i + 1) (by omega)
    refine ⟨values', ?_, ?_⟩
    · rw [List.length_cons, Nat.add_comm slots.length 1, ← Nat.add_assoc, htake, take_set,
        List.append_assoc, List.singleton_append]
    · rw [List.cons_append, drainFrom, fill_of_accept hslot hi, if_pos hmore]
      dsimp only
      rw [hdrain, List.length_cons, Nat.add_comm slots.length 1, ← Nat.add_assoc]

/-- A value written behind all others but one fills the array. -/
theorem set_eq_push {values : Vector α (n + 1)} {first : Vector α n}
    (h : values.toList.take n = first.toList)
    (value : α) : values.set n value (Nat.lt_succ_self n) = first.push value := by
  have htake := take_set (Nat.lt_succ_self n) values value
  rw [h, List.take_of_length_le (by simp)] at htake
  rw [← Vector.toList_inj, htake, Vector.toList_push]

/-- Draining into an array pops what popping by number does, and writes nothing outside of the
array, which has room for the values above the last one that is wanted. -/
theorem popInto_eq (accept : Slot → Except Fault α) (array : Vector α n) (stack : Stack) :
    popInto accept array stack = some (popEach accept n stack) := by
  cases n with
  | zero =>
    obtain rfl : array = #v[] := Vector.eq_empty
    rfl
  | succ n =>
    rw [popInto, if_neg (Nat.succ_ne_zero n), popEach, drain]
    obtain ⟨slots, values, rest, rfl, hslots, hpop⟩ |
      ⟨above, values, slot, rest, fault, rfl, hlt, habove, hslot, hpop⟩ |
      ⟨values, hlt, hstack, hpop⟩ := popEach_cases accept n stack
    · have hlength : slots.length = n := hslots.length_eq.trans (Vector.length_toList ..)
      obtain ⟨array', htake, hdrain⟩ := drainFrom_fill hslots array (i := 0) (by omega) rest
      rw [hlength, Nat.zero_add, List.take_zero, List.nil_append] at htake
      simp only [hlength, Nat.zero_add] at hdrain
      rw [hdrain, hpop]
      cases rest with
      | nil => rfl
      | cons slot rest =>
        cases hslot : accept slot with
        | ok value =>
          rw [drainFrom, fill_of_accept hslot (Nat.lt_succ_self n), if_neg (Nat.lt_irrefl _),
            set_eq_push htake]
          simp [hslot, Except.map]
        | error fault => simp [drainFrom, fill, hslot, Except.map]
    · obtain ⟨array', -, hdrain⟩ := drainFrom_fill habove array (i := 0) (by omega) (slot :: rest)
      rw [hdrain, hpop, drainFrom, fill, hslot]
      rfl
    · obtain ⟨array', -, hdrain⟩ := drainFrom_fill hstack array (i := 0) (by omega) []
      rw [List.append_nil] at hdrain
      rw [hdrain, hpop]
      rfl

/-! ## Values of one kind -/

/-- What popping `n` values of a kind comes to: the values are on top of the stack, or a slot of
another kind is the topmost of those, or the stack is too short. -/
inductive Pops (kind : Kind) (ofValue : α → Value) (n : Nat) (stack : Stack) :
    Except Fault (Vector α n) × Stack → Prop
  | all {values : Vector α n} {rest : Stack} :
      stack = values.toList.map (fun a => some (ofValue a)) ++ rest →
        Pops kind ofValue n stack (.ok values, rest)
  | mismatch {above : List Slot} {slot : Slot} {rest : Stack} : stack = above ++ slot :: rest →
      above.length < n → (∀ s ∈ above, Slot.kind s = kind) → Slot.kind slot ≠ kind →
      Pops kind ofValue n stack (.error (.typeMismatch kind (Slot.kind slot)), rest)
  | underflow : stack.length < n → (∀ s ∈ stack, Slot.kind s = kind) →
      Pops kind ofValue n stack (.error .stackUnderflow, [])

/-- The slots are told apart by their kind: those of the kind are accepted as the values that they
hold, and any other one is refused. -/
structure Selects (accept : Slot → Except Fault α) (kind : Kind) (ofValue : α → Value) : Prop where
  ok : ∀ {slot a}, accept slot = .ok a → slot = some (ofValue a)
  kind_ofValue : ∀ a, (ofValue a).kind = kind
  error : ∀ {slot fault}, accept slot = .error fault →
    Slot.kind slot ≠ kind ∧ fault = .typeMismatch kind (Slot.kind slot)

/-- Integers are selected. -/
theorem selects_asInt : Selects asInt .int .int where
  ok {slot a} h := by
    unfold asInt at h
    split at h
    · cases h
      rfl
    · cases h
  kind_ofValue _ := rfl
  error {slot fault} h := by
    cases slot with
    | none =>
      cases h
      exact ⟨by decide, rfl⟩
    | some v =>
      cases v with
      | int n => cases h
      | str s =>
        cases h
        exact ⟨by simp [Slot.kind, Value.kind], rfl⟩

/-- Strings are selected. -/
theorem selects_asString : Selects asString .string .str where
  ok {slot a} h := by
    unfold asString at h
    split at h
    · cases h
      rfl
    · cases h
  kind_ofValue _ := rfl
  error {slot fault} h := by
    cases slot with
    | none =>
      cases h
      exact ⟨by decide, rfl⟩
    | some v =>
      cases v with
      | int n =>
        cases h
        exact ⟨by simp [Slot.kind, Value.kind], rfl⟩
      | str s => cases h

variable {accept : Slot → Except Fault α} {kind : Kind} {ofValue : α → Value}

/-- The slots of values that were selected. -/
theorem Selects.eq_map (h : Selects accept kind ofValue) {slots : List Slot} {values : List α}
    (haccepted : Accepted accept slots values) : slots = values.map fun a => some (ofValue a) := by
  induction haccepted with
  | nil => rfl
  | cons hslot _ ih => rw [List.map_cons, h.ok hslot, ih]

/-- Slots that were selected have the kind. -/
theorem Selects.kind_of_mem (h : Selects accept kind ofValue) {slots : List Slot} {values : List α}
    (haccepted : Accepted accept slots values) {s : Slot} (hs : s ∈ slots) :
    Slot.kind s = kind := by
  rw [h.eq_map haccepted] at hs
  obtain ⟨a, -, rfl⟩ := List.mem_map.mp hs
  exact h.kind_ofValue a

/-- Popping by kind takes the values of the kind off, the top first, and stops at the first slot
that is of another one. -/
theorem Selects.pops (h : Selects accept kind ofValue) (n : Nat) (stack : Stack) :
    Pops kind ofValue n stack (popEach accept n stack) := by
  obtain ⟨slots, values, rest, rfl, hslots, hpop⟩ |
    ⟨above, values, slot, rest, fault, rfl, hlt, habove, hslot, hpop⟩ |
    ⟨values, hlt, hstack, hpop⟩ := popEach_cases accept n stack
  · rw [hpop]
    exact .all (by rw [h.eq_map hslots])
  · obtain ⟨hkind, rfl⟩ := h.error hslot
    rw [hpop]
    exact .mismatch rfl hlt (fun s hs => h.kind_of_mem habove hs) hkind
  · rw [hpop]
    exact .underflow hlt fun s hs => h.kind_of_mem hstack hs

/-- Draining and popping take a segment off the top of the stack. A visitor is shown the values from
the top with the ordinals one, two, three; what it was not shown is left; and the first verdict that
asks for no more decides, or, if there is none, the end of the stack, which is an underflow. Popping
integers or strings is draining into an array that no write falls outside of. It gives the topmost
values in their order, if they are all of the kind; otherwise it fails at the topmost slot of
another kind, which comes off too, or, where the stack has none but too few values, empties it. -/
theorem drain_takes_top (visit : σ → Nat → Slot → σ × Verdict) (state : σ) (stack : Stack) (n : Nat)
    (ints : Vector Int64 n) (strings : Vector String n) :
    (∃ calls, drain (recording visit) (state, []) stack =
        { drain visit state stack with state := ((drain visit state stack).state, calls) } ∧
      Traces stack 1 calls (drain visit state stack)) ∧
    popInto asInt ints stack = some (popInts n stack) ∧ Pops .int .int n stack (popInts n stack) ∧
    popInto asString strings stack = some (popStrings n stack) ∧
    Pops .string .str n stack (popStrings n stack) := by
  refine ⟨?_, popInto_eq asInt ints stack, selects_asInt.pops n stack,
    popInto_eq asString strings stack, selects_asString.pops n stack⟩
  obtain ⟨calls, hrecord, htraces⟩ := drainFrom_recording visit state [] 1 stack
  exact ⟨calls, hrecord, htraces⟩

end StackMachine.Stack
