import Mathlib.Data.Set.Card
import StackMachine.Memory

/-!
# Memory after a history of stores

A memory is a finite map whatever it has been through. After any stores an address holds the slot of
the last store to it (`LastStore`), and an address without one is undefined (`load_of_lastStore`,
`load_of_unstored`). The number of cells is kept by the map itself and not counted; it is exact
because a memory has one cell for each address that loads as a value (`size_eq_ncard`). Stores to
different addresses commute (`store_comm`), so their order in a history cannot be told from the
memory.
-/

namespace StackMachine.Memory

/-! ## Loads -/

/-- An address holds what was stored there last. -/
theorem load_storeAll (m : Memory) (stores : List (Int64 × Slot)) (a : Int64) :
    (m.storeAll stores).load a =
      ((stores.reverse.find? (·.1 == a)).map (·.2)).getD (m.load a) := by
  induction stores generalizing m with
  | nil => rfl
  | cons s stores ih =>
    have hcons : m.storeAll (s :: stores) = (m.store s.1 s.2).storeAll stores := rfl
    rw [hcons, ih, load_store, List.reverse_cons, List.find?_append]
    cases stores.reverse.find? (·.1 == a) with
    | some found => rfl
    | none =>
      by_cases ha : s.1 = a
      · simp [ha]
      · simp [ha]

/-- The address has been stored to, the last time with this slot. -/
def LastStore (stores : List (Int64 × Slot)) (a : Int64) (slot : Slot) : Prop :=
  ∃ before after, stores = before ++ (a, slot) :: after ∧ ∀ s ∈ after, s.1 ≠ a

/-- The first store from the end at an address is the last one there. -/
theorem find?_reverse_eq_some_iff {stores : List (Int64 × Slot)} {a : Int64} {slot : Slot} :
    stores.reverse.find? (·.1 == a) = some (a, slot) ↔ LastStore stores a slot := by
  rw [List.find?_eq_some_iff_append]
  constructor
  · rintro ⟨-, after, before, hstores, hafter⟩
    refine ⟨before.reverse, after.reverse, ?_, fun s hs => ?_⟩
    · rw [← List.reverse_reverse stores, hstores]
      simp
    · simpa using hafter s (List.mem_reverse.mp hs)
  · rintro ⟨before, after, rfl, hafter⟩
    refine ⟨beq_self_eq_true a, after.reverse, before.reverse, by simp, fun s hs => ?_⟩
    simpa using hafter s (List.mem_reverse.mp hs)

/-- There is no store from the end at an address that none is at. -/
theorem find?_reverse_eq_none_iff {stores : List (Int64 × Slot)} {a : Int64} :
    stores.reverse.find? (·.1 == a) = none ↔ ∀ s ∈ stores, s.1 ≠ a := by
  simp [List.find?_eq_none]

/-- The slot of the last store is loaded. -/
theorem load_of_lastStore {stores : List (Int64 × Slot)} {a : Int64} {slot : Slot}
    (h : LastStore stores a slot) (m : Memory) : (m.storeAll stores).load a = slot := by
  rw [load_storeAll, find?_reverse_eq_some_iff.mpr h]
  rfl

/-- Where nothing is stored, nothing changes. -/
theorem load_of_unstored {stores : List (Int64 × Slot)} {a : Int64} (h : ∀ s ∈ stores, s.1 ≠ a)
    (m : Memory) : (m.storeAll stores).load a = m.load a := by
  rw [load_storeAll, find?_reverse_eq_none_iff.mpr h]
  rfl

/-- An address has a last store or none at all. -/
theorem lastStore_or_unstored (stores : List (Int64 × Slot)) (a : Int64) :
    (∃ slot, LastStore stores a slot) ∨ ∀ s ∈ stores, s.1 ≠ a := by
  cases hfind : stores.reverse.find? (·.1 == a) with
  | none => exact .inr (find?_reverse_eq_none_iff.mp hfind)
  | some found =>
    obtain ⟨b, slot⟩ := found
    obtain rfl : b = a := by simpa using List.find?_some hfind
    exact .inl ⟨slot, find?_reverse_eq_some_iff.mp hfind⟩

/-- In a memory that was empty at first, the defined addresses are those that a value was stored to
last. -/
theorem load_eq_some_iff {stores : List (Int64 × Slot)} {a : Int64} {v : Value} :
    (empty.storeAll stores).load a = some v ↔ LastStore stores a (some v) := by
  constructor
  · intro h
    obtain ⟨slot, hlast⟩ | hnone := lastStore_or_unstored stores a
    · obtain rfl : slot = some v := (load_of_lastStore hlast empty).symm.trans h
      exact hlast
    · rw [load_of_unstored hnone, load_empty] at h
      cases h
  · intro h
    exact load_of_lastStore h empty

/-! ## Cells -/

/-- A memory has one cell for each address that loads as a value. -/
theorem size_eq_ncard (m : Memory) : m.size = {a | ∃ v, m.load a = some v}.ncard := by
  have hcells : {a | ∃ v, m.load a = some v} = ↑m.cells.keys.toFinset := by
    ext a
    rw [Finset.mem_coe, List.mem_toFinset, Std.ExtTreeMap.mem_keys,
      Std.ExtTreeMap.mem_iff_isSome_getElem?]
    exact Option.isSome_iff_exists.symm
  rw [hcells, Set.ncard_coe_finset, List.toFinset_card_of_nodup Std.ExtTreeMap.nodup_keys,
    Std.ExtTreeMap.length_keys, size]

/-- A memory without cells is one that loads nothing. -/
theorem isEmpty_iff_load (m : Memory) : m.isEmpty = true ↔ ∀ a, m.load a = none := by
  rw [isEmpty, Std.ExtTreeMap.isEmpty_iff]
  constructor
  · intro h a
    rw [load, h, Std.ExtTreeMap.getElem?_empty]
  · intro h
    have hempty : m = empty := ext_load fun a => by rw [h, load_empty]
    rw [hempty, empty]

/-! ## The order of stores -/

/-- Stores to different addresses commute. -/
theorem store_comm {a b : Int64} (h : a ≠ b) (m : Memory) (x y : Slot) :
    (m.store a x).store b y = (m.store b y).store a x := by
  refine ext_load fun c => ?_
  rw [load_store, load_store, load_store, load_store]
  by_cases hb : b = c
  · subst hb
    simp [h]
  · simp [hb]

/-- Stores in two parts are made one part after the other. -/
theorem storeAll_append (m : Memory) (stores stores' : List (Int64 × Slot)) :
    m.storeAll (stores ++ stores') = (m.storeAll stores).storeAll stores' :=
  List.foldl_append

/-- Two neighbouring stores to different addresses can change places anywhere in a history. -/
theorem storeAll_swap {s t : Int64 × Slot} (h : s.1 ≠ t.1) (m : Memory)
    (before after : List (Int64 × Slot)) :
    m.storeAll (before ++ t :: s :: after) = m.storeAll (before ++ s :: t :: after) := by
  have hswap (m : Memory) : m.storeAll (t :: s :: after) = m.storeAll (s :: t :: after) := by
    show ((m.store t.1 t.2).store s.1 s.2).storeAll after =
        ((m.store s.1 s.2).store t.1 t.2).storeAll after
    rw [store_comm h]
  rw [storeAll_append, storeAll_append, hswap]

/-! ## What a memory answers -/

/-- After any stores into an empty memory, whether of values or of undefined slots: an address
loads, and gives on look-up, the slot of the last store to it, and is undefined if there was none;
there are as many cells as there are addresses whose last store was of a value; there is no cell
exactly if every address loads as undefined; and where two neighbouring stores are to different
addresses, the other order leaves the same memory. -/
theorem answers_after_stores (stores : List (Int64 × Slot)) :
    (∀ a slot, LastStore stores a slot →
      (empty.storeAll stores).load a = slot ∧ (empty.storeAll stores).get? a = slot) ∧
    (∀ a, (∀ s ∈ stores, s.1 ≠ a) →
      (empty.storeAll stores).load a = none ∧ (empty.storeAll stores).get? a = none) ∧
    (empty.storeAll stores).size = {a | ∃ v, LastStore stores a (some v)}.ncard ∧
    ((empty.storeAll stores).isEmpty = true ↔ ∀ a, (empty.storeAll stores).load a = none) ∧
    ∀ before s t after, stores = before ++ s :: t :: after → s.1 ≠ t.1 →
      empty.storeAll (before ++ t :: s :: after) = empty.storeAll stores := by
  refine ⟨fun a slot hlast => ?_, fun a hnone => ?_, ?_, isEmpty_iff_load _, ?_⟩
  · have hload := load_of_lastStore hlast empty
    exact ⟨hload, (get?_eq_load _ a).trans hload⟩
  · have hload := (load_of_unstored hnone empty).trans (load_empty a)
    exact ⟨hload, (get?_eq_load _ a).trans hload⟩
  · simp only [size_eq_ncard, load_eq_some_iff]
  · rintro before s t after rfl hne
    exact storeAll_swap hne empty before after

/-- A cell that is filled, cleared and filled again, and one that is cleared without having been
filled: the store to the second one may come first. -/
theorem answers_after_stores_refilled :
    LastStore [(5, some (.int 99)), (-7, none), (5, none), (5, some (.str "over"))]
      5 (some (.str "over")) ∧
    (empty.storeAll [(5, some (.int 99)), (-7, none), (5, none), (5, some (.str "over"))]).load 5 =
      some (.str "over") ∧
    (empty.storeAll [(5, some (.int 99)), (-7, none), (5, none), (5, some (.str "over"))]).load 8 =
      none ∧
    {a | ∃ v, LastStore [(5, some (.int 99)), (-7, none), (5, none), (5, some (.str "over"))] a
      (some v)}.ncard = 1 ∧
    empty.storeAll [(-7, none), (5, some (.int 99)), (5, none), (5, some (.str "over"))] =
      empty.storeAll [(5, some (.int 99)), (-7, none), (5, none), (5, some (.str "over"))] := by
  have hlast : LastStore [(5, some (.int 99)), (-7, none), (5, none), (5, some (.str "over"))] 5
      (some (.str "over")) :=
    ⟨[(5, some (.int 99)), (-7, none), (5, none)], [], rfl, nofun⟩
  obtain ⟨hload, hnone, hsize, -, hswap⟩ :=
    answers_after_stores [(5, some (.int 99)), (-7, none), (5, none), (5, some (.str "over"))]
  exact ⟨hlast, (hload 5 _ hlast).1, (hnone 8 (by decide)).1, hsize.symm.trans (by decide),
    hswap [] _ _ _ rfl (by decide)⟩

end StackMachine.Memory
