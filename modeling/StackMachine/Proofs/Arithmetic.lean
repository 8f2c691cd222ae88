import Mathlib.Data.Int.ModEq
import StackMachine.Proofs.Prelude

/-!
# Integer arithmetic

The operations on two integers take the right operand off the stack before the left one, and compute
on words. What they compute is said here of the integers that the words stand for: sums, differences
and products wrap around (`WrapsTo`), the quotient is rounded toward zero and wraps around for one
pair of operands only (`toInt_div`), and comparisons are those of signed integers. A division by
zero is the one failure.

A word that is added can be subtracted again, whatever wraps around in between: the machine comes
back to the stack that it had (`Machine.resume_undo`).
-/

namespace StackMachine

/-! ## Words -/

/-- The word that an integer wraps around to: it stands for the only integer of the range of words
that is congruent to it. -/
def WrapsTo (k : Int) (r : Int64) : Prop :=
  ∀ s : Int, s = r.toInt ↔
    -0x8000000000000000 ≤ s ∧ s < 0x8000000000000000 ∧ s ≡ k [ZMOD 0x10000000000000000]

/-- A word that is the balanced remainder of an integer is what it wraps to. -/
theorem wrapsTo_of_bmod {k : Int} {r : Int64} (h : r.toInt = k.bmod 0x10000000000000000) :
    WrapsTo k r := by
  intro s
  rw [h, eq_comm, Int.bmod_eq_iff (by decide), Int.modEq_comm, Int.modEq_iff_dvd]
  rfl

/-- The sum of two words wraps. -/
theorem wrapsTo_add (a b : Int64) : WrapsTo (a.toInt + b.toInt) (a + b) :=
  wrapsTo_of_bmod (a.toInt_add b)

/-- The difference of two words wraps. -/
theorem wrapsTo_sub (a b : Int64) : WrapsTo (a.toInt - b.toInt) (a - b) :=
  wrapsTo_of_bmod (a.toInt_sub b)

/-- The product of two words wraps. -/
theorem wrapsTo_mul (a b : Int64) : WrapsTo (a.toInt * b.toInt) (a * b) :=
  wrapsTo_of_bmod (a.toInt_mul b)

/-- The least word divided by minus one is the only quotient that does not fit a word. -/
theorem toInt_div (a b : Int64) : (a / b).toInt =
    if a = Int64.minValue ∧ b = -1 then Int64.minValue.toInt else a.toInt.tdiv b.toInt := by
  split
  · rename_i hwraps
    obtain ⟨rfl, rfl⟩ := hwraps
    rfl
  · rename_i hfits
    by_cases ha : a = Int64.minValue
    · exact a.toInt_div_of_ne_right b fun hb => hfits ⟨ha, hb⟩
    · exact a.toInt_div_of_ne_left b ha

/-! ## Operations -/

/-- The integer on top is the right operand. -/
theorem Effect.binary_ints (op : Int64 → Int64 → Except Fault Value) (a b : Int64) (rest : Stack) :
    binary op (some (.int b) :: some (.int a) :: rest) =
      match op a b with
      | .error fault => ⟨rest, .error fault⟩
      | .ok v => pushing v rest := rfl

/-- A comparison of words is one of the integers that they denote. -/
theorem Value.ofBool_lt (a b : Int64) :
    ofBool (decide (a < b)) = .int (if a.toInt < b.toInt then 1 else 0) := by
  by_cases hlt : a.toInt < b.toInt
  · rw [decide_eq_true (Int64.lt_iff_toInt_lt.mpr hlt), if_pos hlt]
    rfl
  · rw [decide_eq_false (mt Int64.lt_iff_toInt_lt.mp hlt), if_neg hlt]
    rfl

namespace Instruction

variable (memory : Memory) (a b : Int64) (rest : Stack)

/-- Division of two integers: by zero it fails, and otherwise it leaves their quotient. -/
theorem exec_divide : divide.exec memory (some (.int b) :: some (.int a) :: rest) =
      if b = 0 then ⟨rest, .error .divisionByZero⟩
      else ⟨some (.int (a / b)) :: rest, .ok .proceed⟩ := by
  rw [exec, Effect.binary_ints, quotient]
  by_cases hb : b = 0
  · rw [if_pos hb, if_pos hb]
  · rw [if_neg hb, if_neg hb]
    rfl

/-- `lessThan` leaves whether the integer pushed first is less. -/
theorem exec_lessThan : lessThan.exec memory (some (.int b) :: some (.int a) :: rest) =
    ⟨some (.int (if a.toInt < b.toInt then 1 else 0)) :: rest, .ok .proceed⟩ := by
  rw [← Value.ofBool_lt]
  rfl

/-- `greaterThan` leaves whether the integer pushed first is greater. -/
theorem exec_greaterThan : greaterThan.exec memory (some (.int b) :: some (.int a) :: rest) =
    ⟨some (.int (if a.toInt > b.toInt then 1 else 0)) :: rest, .ok .proceed⟩ := by
  rw [← Value.ofBool_lt]
  rfl

end Instruction

/-! ## Adding and subtracting again -/

namespace Machine

variable {p : Program} {m : Machine}

/-- An instruction that goes on leaves its stack. -/
theorem step_proceed {i : Instruction} {stack : Stack} {pc : Nat} (hdue : p[pc]? = some i)
    (hexec : i.exec m.memory m.stack = ⟨stack, .ok .proceed⟩) :
    (m.goto p pc).step p = { m with steps := m.steps + 1, stack }.goto p (pc + 1) := by
  rw [step_granted hdue hexec]
  rfl

/-- Two operations with one right operand, the second of which undoes the first: the machine that
has come to the first push goes on behind the second operation as if nothing had happened. -/
theorem resume_undo {first second : Instruction} {code : List Instruction} {a b c : Int64}
    {rest : Stack} {base : Nat}
    (hcode : p.toList.drop base = .pushInt b :: first :: .pushInt b :: second :: code)
    (hstack : m.stack = some (.int a) :: rest)
    (hfirst : first.exec m.memory (some (.int b) :: some (.int a) :: rest) =
      ⟨some (.int c) :: rest, .ok .proceed⟩)
    (hsecond : second.exec m.memory (some (.int b) :: some (.int c) :: rest) =
      ⟨some (.int a) :: rest, .ok .proceed⟩) :
    (m.goto p base).resume p 4 = { m with steps := m.steps + 4 }.goto p (base + 4) := by
  obtain ⟨hdue₁, hcode₁⟩ := Program.due_of_drop hcode
  obtain ⟨hdue₂, hcode₂⟩ := Program.due_of_drop hcode₁
  obtain ⟨hdue₃, hcode₃⟩ := Program.due_of_drop hcode₂
  obtain ⟨hdue₄, -⟩ := Program.due_of_drop hcode₃
  rw [← hstack] at hfirst hsecond
  rw [resume_succ, step_proceed hdue₁ rfl, resume_succ, step_proceed hdue₂ hfirst, resume_succ,
    step_proceed hdue₃ rfl, resume_succ, step_proceed hdue₄ hsecond]
  rfl

end Machine

/-- Integer instructions compute with the two integers on top in the order in which they were
pushed. Sums, differences and products are those of integers, wrapped around to a word. A division
fails exactly if the right operand is zero, and then for that; otherwise its quotient is rounded
toward zero, but the least word divided by minus one is the least word. The comparisons push one or
zero, as the integers compare. Nothing else can happen. A machine that adds a word to the integer on
top and subtracts it again, or the other way round, has the stack from before, and has only counted
the instructions and passed them. -/
theorem arithmetic_wraps (memory : Memory) (a b : Int64) (rest : Stack) :
    let effect (i : Instruction) := i.exec memory (some (.int b) :: some (.int a) :: rest)
    let leaves (r : Int64) : Effect := ⟨some (.int r) :: rest, .ok .proceed⟩
    (∃ r, effect .add = leaves r ∧ WrapsTo (a.toInt + b.toInt) r) ∧
    (∃ r, effect .subtract = leaves r ∧ WrapsTo (a.toInt - b.toInt) r) ∧
    (∃ r, effect .multiply = leaves r ∧ WrapsTo (a.toInt * b.toInt) r) ∧
    ((effect .divide).outcome = .error .divisionByZero ↔ b = 0) ∧
    (b = 0 → effect .divide = ⟨rest, .error .divisionByZero⟩) ∧
    (b ≠ 0 → ∃ r, effect .divide = leaves r ∧
      r.toInt =
        if a = Int64.minValue ∧ b = -1 then Int64.minValue.toInt else a.toInt.tdiv b.toInt) ∧
    effect .lessThan = leaves (if a.toInt < b.toInt then 1 else 0) ∧
    effect .greaterThan = leaves (if a.toInt > b.toInt then 1 else 0) ∧
    ∀ (p : Program) (m : Machine) (base : Nat) (first second : Instruction)
        (code : List Instruction),
      (first, second) = (.add, .subtract) ∨ (first, second) = (.subtract, .add) →
      p.toList.drop base = .pushInt b :: first :: .pushInt b :: second :: code →
      m.stack = some (.int a) :: rest →
      (m.goto p base).resume p 4 = { m with steps := m.steps + 4 }.goto p (base + 4) := by
  intro effect leaves
  have hdivide : effect .divide = _ := Instruction.exec_divide memory a b rest
  refine ⟨⟨_, rfl, wrapsTo_add a b⟩, ⟨_, rfl, wrapsTo_sub a b⟩, ⟨_, rfl, wrapsTo_mul a b⟩,
    ⟨?fails, ?zero⟩,
    fun hb => hdivide.trans (if_pos hb), ?quotient, Instruction.exec_lessThan memory a b rest,
    Instruction.exec_greaterThan memory a b rest, ?undo⟩
  case fails =>
    intro hfails
    refine Decidable.byContradiction fun hb => ?_
    rw [hdivide, if_neg hb] at hfails
    cases hfails
  case zero =>
    intro hb
    rw [hdivide, if_pos hb]
  case quotient => exact fun hb => ⟨a / b, hdivide.trans (if_neg hb), toInt_div a b⟩
  case undo =>
    intro p m base first second code hpair hcode hstack
    have hadd : leaves (a + b - b) = leaves a := by rw [Int64.add_sub_cancel]
    have hsub : leaves (a - b + b) = leaves a := by rw [Int64.sub_add_cancel]
    rcases hpair with heq | heq <;> cases heq
    · exact Machine.resume_undo hcode hstack rfl hadd
    · exact Machine.resume_undo hcode hstack rfl hsub

/-- The least word and minus one, of which the sum, the product and the quotient do not fit a word;
a division by zero; and a program that adds the greatest word to one and subtracts it again. -/
theorem arithmetic_wraps_at_ends :
    let effect (i : Instruction) :=
      i.exec .empty [some (.int (-1)), some (.int Int64.minValue), none]
    let p : Program :=
      #[.stop, .pushInt Int64.maxValue, .add, .pushInt Int64.maxValue, .subtract, .output 1]
    let m : Machine := { stack := [some (.int 1), some (.str "x")] }
    (∃ r, effect .add = ⟨[some (.int r), none], .ok .proceed⟩ ∧ WrapsTo (-0x8000000000000001) r) ∧
    (-1 : Int64) ≠ 0 ∧ effect .divide = ⟨[some (.int Int64.minValue), none], .ok .proceed⟩ ∧
    Instruction.divide.exec .empty [some (.int 0), some (.int 7)] = ⟨[], .error .divisionByZero⟩ ∧
    effect .lessThan = ⟨[some (.int 1), none], .ok .proceed⟩ ∧
    m.stack = [some (.int 1), some (.str "x")] ∧
    (m.goto p 1).resume p 4 = { m with steps := 4 }.goto p 5 := by
  intro effect p m
  obtain ⟨hadd, -, -, -, -, hdivide, hless, -⟩ := arithmetic_wraps .empty Int64.minValue (-1) [none]
  obtain ⟨-, -, -, -, hzero, -⟩ := arithmetic_wraps .empty 7 0 []
  obtain ⟨-, -, -, -, -, -, -, -, hundo⟩ :=
    arithmetic_wraps .empty 1 Int64.maxValue [some (.str "x")]
  obtain ⟨r, hr, hleast⟩ := hdivide (by decide)
  refine ⟨hadd, by decide, ?_, hzero rfl, hless, rfl,
    hundo p m 1 _ _ [.output 1] (.inl rfl) rfl rfl⟩
  rwa [Int64.toInt_inj.mp hleast] at hr

end StackMachine
