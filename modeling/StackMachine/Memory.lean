import Std.Data.ExtTreeMap
import StackMachine.Value

/-!
# Memory

Memory is a finite map from addresses to values: storing an undefined slot removes the cell. Two
memories that load alike at every address are equal (`Memory.ext_load`), and the cells are listed by
rising address.
-/

namespace StackMachine

/-- The defined cells of a memory. -/
structure Memory where
  cells : Std.ExtTreeMap Int64 Value

namespace Memory

/-- A memory with no defined cell. -/
def empty : Memory := ⟨∅⟩

/-- What the address holds. -/
def load (m : Memory) (address : Int64) : Slot := m.cells[address]?

/-- The value of a defined cell. -/
def get? (m : Memory) (address : Int64) : Option Value := m.cells[address]?

/-- The memory after a store; an undefined slot undefines the cell. -/
def store (m : Memory) (address : Int64) : Slot → Memory
  | some v => ⟨m.cells.insert address v⟩
  | none => ⟨m.cells.erase address⟩

/-- The memory after stores in the order of the list. -/
def storeAll (m : Memory) (stores : List (Int64 × Slot)) : Memory :=
  stores.foldl (fun m s => m.store s.1 s.2) m

/-- The number of defined cells. -/
def size (m : Memory) : Nat := m.cells.size

/-- The memory has no defined cell. -/
def isEmpty (m : Memory) : Bool := m.cells.isEmpty

/-- The defined cells by rising address. -/
def toList (m : Memory) : List (Int64 × Value) := m.cells.toList

/-- The empty memory holds nothing. -/
@[simp] theorem load_empty (a : Int64) : empty.load a = none := by
  simp [load, empty]

/-- Looking a cell up and loading it are the same. -/
theorem get?_eq_load (m : Memory) (a : Int64) : m.get? a = m.load a := rfl

/-- A store is seen at its own address and nowhere else. -/
theorem load_store (m : Memory) (a b : Int64) (slot : Slot) :
    (m.store a slot).load b = if a = b then slot else m.load b := by
  cases slot <;> simp [store, load, Std.ExtTreeMap.getElem?_insert, Std.ExtTreeMap.getElem?_erase]

/-- A cell holds what was stored there. -/
@[simp] theorem load_store_self (m : Memory) (a : Int64) (slot : Slot) :
    (m.store a slot).load a = slot := by
  simp [load_store]

/-- Memories that load alike are equal. -/
theorem ext_load {m₁ m₂ : Memory} (h : ∀ a, m₁.load a = m₂.load a) : m₁ = m₂ := by
  cases m₁
  cases m₂
  exact congrArg Memory.mk (Std.ExtTreeMap.ext_getElem? h)

end Memory

end StackMachine
