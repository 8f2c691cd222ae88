import Mathlib.Data.List.Induction
import StackMachine.Proofs.Override

/-!
# Overrides one by one

A user may override parameters one by one and go on after a refusal (`Header.assignAll`). What is
typed for a parameter gives a value of the parameter's kind or none (`Value.Typed`), and an override
that is accepted puts this value into the first parameter of its name and changes nothing else
(`Header.override_eq_ok_iff`). So the declarations stay as they are, kinds included, and with them
what later overrides are accepted (`Header.declared_assignAll`); a first parameter holds the value
of the last override that was accepted for its name (`Header.FirstAt.assignAll`), and a parameter
behind another one of its name keeps its value (`Header.getElem?_assignAll_of_shadowed`).
-/

namespace StackMachine

open Numeral

/-- A text that is typed for a value of this kind, and the value: an integer is typed as a number,
and a string is the text itself. -/
inductive Value.Typed : Kind → String → Value → Prop
  | int {raw : String} {n : Int64} : Numeral.Typed raw.toList n.toInt → Typed .int raw (.int n)
  | str (raw : String) : Typed .string raw (.str raw)

/-- A value that is typed has the kind that it is typed for. -/
theorem Value.Typed.kind_eq {kind : Kind} {raw : String} {v : Value} (h : Typed kind raw v) :
    v.kind = kind := by
  cases h <;> rfl

/-- A text gives no value if it is typed for an integer and is no number that fits a word. -/
theorem Value.not_typed_iff {v : Value} {raw : String} :
    (¬∃ v', Typed v.kind raw v') ↔
      ∃ m, v = .int m ∧ ¬∃ n : Int64, Numeral.Typed raw.toList n.toInt := by
  cases v with
  | int m =>
    constructor
    · exact fun h => ⟨m, rfl, fun ⟨n, hn⟩ => h ⟨.int n, .int hn⟩⟩
    · rintro ⟨_, -, hno⟩ ⟨_, ⟨hn⟩⟩
      exact hno ⟨_, hn⟩
  | str s =>
    constructor
    · exact fun h => absurd ⟨.str raw, .str raw⟩ h
    · rintro ⟨_, heq, -⟩
      cases heq

namespace Parameter

/-- What a declaration says of a parameter besides its value: its name, its address and its kind. -/
def declared (p : Parameter) : String × Int64 × Kind := (p.name, p.address, p.value.kind)

/-- A parameter accepts the texts that give a value of its kind, and changes its value only. -/
theorem override_eq_ok_iff {p p' : Parameter} {raw : String} :
    p.override raw = .ok p' ↔ ∃ v, Value.Typed p.value.kind raw v ∧ p' = { p with value := v } := by
  unfold override
  cases p.value with
  | int m =>
    constructor
    · intro h
      dsimp only at h
      split at h
      · cases h
      · rename_i n hn
        cases h
        exact ⟨.int n, .int (readInt_trim_eq_ok_iff.mp hn), rfl⟩
    · rintro ⟨_, ⟨hn⟩, rfl⟩
      dsimp only
      rw [readInt_trim_eq_ok_iff.mpr hn]
  | str s =>
    constructor
    · intro h
      cases h
      exact ⟨.str raw, .str raw, rfl⟩
    · rintro ⟨_, ⟨⟩, rfl⟩
      rfl

end Parameter

namespace Header

variable {h h' : Header} {k : Nat} {p q : Parameter} {name raw : String}

/-! ## The first parameter of a name -/

/-- The parameter at index `k`, which is the first one of its name. -/
structure FirstAt (h : Header) (k : Nat) (p : Parameter) : Prop where
  here : h[k]? = some p
  first : ∀ j q, j < k → h[j]? = some q → q.name ≠ p.name

/-- The first parameter of a header is the first one of its name. -/
theorem firstAt_zero : FirstAt (q :: h) 0 p ↔ q = p :=
  ⟨fun hp => Option.some.inj hp.here, fun hp => ⟨congrArg some hp, nofun⟩⟩

/-- A later parameter is the first one of its name if none before it has that name. -/
theorem firstAt_succ : FirstAt (q :: h) (k + 1) p ↔ q.name ≠ p.name ∧ FirstAt h k p := by
  constructor
  · rintro ⟨hhere, hfirst⟩
    exact ⟨hfirst 0 q (Nat.zero_lt_succ k) rfl, hhere,
      fun j q' hj => hfirst (j + 1) q' (Nat.succ_lt_succ hj)⟩
  · rintro ⟨hq, hhere, hfirst⟩
    refine ⟨hhere, fun j q' hj hq' => ?_⟩
    cases j with
    | zero =>
      cases hq'
      exact hq
    | succ j => exact hfirst j q' (Nat.lt_of_succ_lt_succ hj) hq'

/-- A name that some parameter has is the name of a first one. -/
theorem exists_firstAt (hp : ∃ p ∈ h, p.name = name) : ∃ k p, FirstAt h k p ∧ p.name = name := by
  induction h with
  | nil => simp at hp
  | cons q qs ih =>
    by_cases hq : q.name = name
    · exact ⟨0, q, firstAt_zero.mpr rfl, hq⟩
    · obtain ⟨p, hp, hname⟩ := hp
      rcases List.mem_cons.mp hp with rfl | hp
      · exact absurd hname hq
      · obtain ⟨k, p, hfirst, hname⟩ := ih ⟨p, hp, hname⟩
        exact ⟨k + 1, p, firstAt_succ.mpr ⟨fun heq => hq (heq.trans hname), hfirst⟩, hname⟩

/-- There is one first parameter of a name. -/
theorem FirstAt.unique {j : Nat} (hp : FirstAt h k p) (hq : FirstAt h j q)
    (hname : p.name = q.name) : k = j ∧ p = q := by
  have heq : k = j := by
    rcases Nat.lt_trichotomy k j with hlt | heq | hlt
    · exact absurd hname (hq.first k p hlt hp.here)
    · exact heq
    · exact absurd hname.symm (hp.first j q hlt hq.here)
  subst heq
  exact ⟨rfl, Option.some.inj (hp.here.symm.trans hq.here)⟩

/-! ## One override -/

/-- An override that is accepted changes the value of the first parameter of its name. -/
theorem override_eq_ok_iff : h.override name raw = .ok h' ↔
    ∃ k p v, FirstAt h k p ∧ p.name = name ∧ Value.Typed p.value.kind raw v ∧
      h' = List.set h k { p with value := v } := by
  induction h generalizing h' with
  | nil =>
    constructor
    · intro hok
      cases hok
    · rintro ⟨k, p, v, hp, -⟩
      cases hp.here
  | cons q qs ih =>
    by_cases hq : q.name = name
    · rw [override_cons_of_eq hq, map_eq_ok_iff]
      simp only [Parameter.override_eq_ok_iff]
      constructor
      · rintro ⟨_, ⟨v, hv, rfl⟩, rfl⟩
        exact ⟨0, q, v, firstAt_zero.mpr rfl, hq, hv, rfl⟩
      · rintro ⟨k, p, v, hp, hname, hv, rfl⟩
        obtain ⟨rfl, rfl⟩ := hp.unique (firstAt_zero.mpr rfl) (hname.trans hq.symm)
        exact ⟨_, ⟨v, hv, rfl⟩, rfl⟩
    · rw [override_cons_of_ne hq, map_eq_ok_iff]
      simp only [ih]
      constructor
      · rintro ⟨_, ⟨k, p, v, hp, hname, hv, rfl⟩, rfl⟩
        exact ⟨k + 1, p, v, firstAt_succ.mpr ⟨fun heq => hq (heq.trans hname), hp⟩, hname, hv, rfl⟩
      · rintro ⟨k, p, v, hp, hname, hv, rfl⟩
        cases k with
        | zero =>
          cases firstAt_zero.mp hp
          exact absurd hname hq
        | succ k => exact ⟨_, ⟨k, p, v, (firstAt_succ.mp hp).2, hname, hv, rfl⟩, rfl⟩

/-- An override is refused for a name that no parameter has, or for the first parameter of that
name, which then is an integer. -/
theorem override_eq_error_iff : (∃ fault, h.override name raw = .error fault) ↔
    (∀ p ∈ h, p.name ≠ name) ∨
      ∃ k p m, FirstAt h k p ∧ p.name = name ∧ p.value = .int m ∧
        ¬∃ n : Int64, Numeral.Typed raw.toList n.toInt := by
  have hrefused :
      (∃ fault, h.override name raw = .error fault) ↔ ¬∃ h', h.override name raw = .ok h' := by
    cases h.override name raw <;> simp
  simp only [hrefused, override_eq_ok_iff]
  constructor
  · intro hno
    by_cases hnamed : ∃ p ∈ h, p.name = name
    · obtain ⟨k, p, hp, hname⟩ := exists_firstAt hnamed
      have huntyped : ¬∃ v, Value.Typed p.value.kind raw v :=
        fun ⟨v, hv⟩ => hno ⟨_, k, p, v, hp, hname, hv, rfl⟩
      obtain ⟨m, hm, hnumber⟩ := Value.not_typed_iff.mp huntyped
      exact .inr ⟨k, p, m, hp, hname, hm, hnumber⟩
    · exact .inl fun p hp hname => hnamed ⟨p, hp, hname⟩
  · rintro (hnone | ⟨k, p, m, hp, hname, hm, hnumber⟩) ⟨_, j, q, v, hq, hname', hv, -⟩
    · exact hnone q (List.mem_of_getElem? hq.here) hname'
    · obtain ⟨-, rfl⟩ := hp.unique hq (hname.trans hname'.symm)
      exact Value.not_typed_iff.mpr ⟨m, hm, hnumber⟩ ⟨v, hv⟩

/-- What stands at an index after one parameter was replaced. -/
theorem FirstAt.getElem?_set (hp : FirstAt h k p) (p' : Parameter) (j : Nat) :
    (List.set h k p')[j]? = if k = j then some p' else h[j]? := by
  rw [List.getElem?_set]
  split
  · rw [if_pos (List.getElem?_eq_some_iff.mp hp.here).1]
  · rfl

/-- An override keeps the declarations. -/
theorem declared_override (hok : h.override name raw = .ok h') :
    h'.map Parameter.declared = h.map Parameter.declared := by
  obtain ⟨k, p, v, hp, -, hv, rfl⟩ := override_eq_ok_iff.mp hok
  have hsame : Parameter.declared { p with value := v } = p.declared :=
    congrArg (fun kind => (p.name, p.address, kind)) hv.kind_eq
  refine List.ext_getElem? fun j => ?_
  rw [List.getElem?_map, List.getElem?_map, hp.getElem?_set]
  split
  · rename_i hj
    rw [← hj, hp.here, Option.map_some, Option.map_some, hsame]
  · rfl

/-! ## One override after the other -/

/-- A parameter is set to what an override gives. -/
theorem set_eq_ok_iff : h.set name raw = (.ok (), h') ↔ h.override name raw = .ok h' := by
  rw [set_eq]
  cases h.override name raw <;> simp

/-- A parameter refuses what an override refuses. -/
theorem fst_set_eq_error_iff {fault : Parameter.Fault} :
    (h.set name raw).1 = .error fault ↔ h.override name raw = .error fault := by
  rw [set_eq]
  cases h.override name raw <;> simp

/-- The header after a parameter is set in it, refused or not. -/
def assign (h : Header) (call : String × String) : Header := (h.set call.1 call.2).2

/-- The header after overrides in the order of the list, each refused or not. -/
def assignAll (h : Header) (calls : List (String × String)) : Header := calls.foldl assign h

/-- No override for the name is accepted when its turn comes. -/
def NoneAccepted (h : Header) (calls : List (String × String)) (name : String) : Prop :=
  ∀ earlier raw later, calls = earlier ++ (name, raw) :: later →
    ∃ fault, ((h.assignAll earlier).set name raw).1 = .error fault

/-- The last override for the name that is accepted when its turn comes is one of `raw`. -/
def LastAccepted (h : Header) (calls : List (String × String)) (name raw : String) : Prop :=
  ∃ earlier later h', calls = earlier ++ (name, raw) :: later ∧
    (h.assignAll earlier).set name raw = (.ok (), h') ∧ NoneAccepted h' later name

variable {calls : List (String × String)} {call : String × String}

/-- A refusal leaves the header as it is. -/
theorem assign_of_error {fault : Parameter.Fault} (herror : h.override name raw = .error fault) :
    h.assign (name, raw) = h := by
  rw [assign, set_eq, herror]

/-- An override that is accepted is made. -/
theorem assign_of_ok (hok : h.override name raw = .ok h') : h.assign (name, raw) = h' := by
  rw [assign, set_eq, hok]

/-- Overrides in two parts are made one part after the other. -/
theorem assignAll_append (h : Header) (calls later : List (String × String)) :
    h.assignAll (calls ++ later) = (h.assignAll calls).assignAll later := List.foldl_append

/-- The last override is made on what those before it leave. -/
theorem assignAll_concat (h : Header) (calls : List (String × String)) (call : String × String) :
    h.assignAll (calls ++ [call]) = (h.assignAll calls).assign call :=
  assignAll_append h calls [call]

/-- An override, refused or not, keeps the declarations. -/
theorem declared_assign (h : Header) (call : String × String) :
    (h.assign call).map Parameter.declared = h.map Parameter.declared := by
  obtain ⟨name, raw⟩ := call
  cases hcall : h.override name raw with
  | error fault => rw [assign_of_error hcall]
  | ok h' => rw [assign_of_ok hcall, declared_override hcall]

/-- The declarations stay as they are. -/
theorem declared_assignAll (h : Header) (calls : List (String × String)) :
    (h.assignAll calls).map Parameter.declared = h.map Parameter.declared := by
  induction calls using List.reverseRecOn with
  | nil => rfl
  | append_singleton calls call ih => rw [assignAll_concat, declared_assign, ih]

/-- Headers of the same declarations have parameters of the same declaration at every index. -/
theorem exists_of_declared (hsame : h'.map Parameter.declared = h.map Parameter.declared)
    (hp : h[k]? = some p) : ∃ p', h'[k]? = some p' ∧ p'.declared = p.declared := by
  have hk := congrArg (·[k]?) hsame
  simp only [List.getElem?_map, hp, Option.map_some] at hk
  exact Option.map_eq_some_iff.mp hk

/-- Parameters of the same declaration have the same name. -/
theorem name_of_declared {p p' : Parameter} (hsame : p'.declared = p.declared) : p'.name = p.name :=
  congrArg Prod.fst hsame

/-- Which parameter is the first one of a name depends on the declarations only. -/
theorem FirstAt.of_declared (hsame : h'.map Parameter.declared = h.map Parameter.declared)
    (hp : FirstAt h k p) : ∃ p', FirstAt h' k p' ∧ p'.declared = p.declared := by
  obtain ⟨p', hhere, hdeclared⟩ := exists_of_declared hsame hp.here
  refine ⟨p', ⟨hhere, fun j q' hj hq' => ?_⟩, hdeclared⟩
  obtain ⟨q, hq, hdeclared'⟩ := exists_of_declared hsame.symm hq'
  rw [← name_of_declared hdeclared', name_of_declared hdeclared]
  exact hp.first j q hj hq

/-- Of no overrides, none is accepted. -/
theorem noneAccepted_nil (h : Header) (name : String) : NoneAccepted h [] name :=
  fun _ _ _ hsplit => absurd hsplit (by simp)

/-- What is accepted or refused so far is not changed by one more refusal. -/
theorem NoneAccepted.concat (hnone : NoneAccepted h calls name)
    (hcall : call.1 = name → ∃ fault, ((h.assignAll calls).set call.1 call.2).1 = .error fault) :
    NoneAccepted h (calls ++ [call]) name := by
  intro earlier raw later hsplit
  rcases List.eq_nil_or_concat later with rfl | ⟨later, last, rfl⟩
  · obtain ⟨rfl, hlast⟩ := List.append_inj' hsplit rfl
    cases hlast
    exact hcall rfl
  · rw [List.concat_eq_append, ← List.cons_append, ← List.append_assoc] at hsplit
    exact hnone earlier raw later (List.append_inj' hsplit rfl).1

/-- The override that was accepted last stays so after one more refusal. -/
theorem LastAccepted.concat (hlast : LastAccepted h calls name raw)
    (hcall : call.1 = name → ∃ fault, ((h.assignAll calls).set call.1 call.2).1 = .error fault) :
    LastAccepted h (calls ++ [call]) name raw := by
  obtain ⟨earlier, later, h', rfl, hok, hnone⟩ := hlast
  have hreached : h.assignAll (earlier ++ (name, raw) :: later) = h'.assignAll later := by
    rw [assignAll_append]
    show (assign _ _).assignAll later = _
    rw [assign_of_ok (set_eq_ok_iff.mp hok)]
  rw [hreached] at hcall
  exact ⟨earlier, later ++ [call], h', by rw [List.append_assoc, List.cons_append], hok,
    hnone.concat hcall⟩

/-- A first parameter holds the value of the last override for its name that was accepted, or the
one from before. The override for its name that comes last is for this parameter, whose kind is
still the declared one. -/
theorem FirstAt.assignAll (hp : FirstAt h k p) (calls : List (String × String)) :
    ∃ v, (h.assignAll calls)[k]? = some { p with value := v } ∧
      ((∃ raw, LastAccepted h calls p.name raw ∧ Value.Typed p.value.kind raw v) ∨
        NoneAccepted h calls p.name ∧ v = p.value) := by
  induction calls using List.reverseRecOn with
  | nil => exact ⟨p.value, hp.here, .inr ⟨noneAccepted_nil h p.name, rfl⟩⟩
  | append_singleton calls call ih =>
    obtain ⟨v, hv, hvalue⟩ := ih
    obtain ⟨name, raw⟩ := call
    rw [assignAll_concat]
    cases hcall : (h.assignAll calls).override name raw with
    | error fault =>
      rw [assign_of_error hcall]
      have hrefused := fst_set_eq_error_iff.mpr hcall
      refine ⟨v, hv, hvalue.imp ?_ ?_⟩
      · exact fun ⟨raw, hlast, htyped⟩ => ⟨raw, hlast.concat fun _ => ⟨fault, hrefused⟩, htyped⟩
      · exact fun ⟨hnone, heq⟩ => ⟨hnone.concat fun _ => ⟨fault, hrefused⟩, heq⟩
    | ok h' =>
      rw [assign_of_ok hcall]
      obtain ⟨j, q, w, hq, hname, hw, rfl⟩ := override_eq_ok_iff.mp hcall
      by_cases hsame : name = p.name
      · obtain ⟨p₁, hp₁, hdeclared⟩ := hp.of_declared (declared_assignAll h calls)
        obtain ⟨rfl, rfl⟩ :=
          hq.unique hp₁ (hname.trans (hsame.trans (name_of_declared hdeclared).symm))
        obtain rfl : q = { p with value := v } := Option.some.inj (hq.here.symm.trans hv)
        have hkind : v.kind = p.value.kind := congrArg (·.2.2) hdeclared
        refine ⟨w, by rw [hq.getElem?_set, if_pos rfl], .inl ⟨raw, ?_, hkind ▸ hw⟩⟩
        exact ⟨calls, [], _, by rw [hsame], set_eq_ok_iff.mpr (hsame ▸ hcall), noneAccepted_nil _ _⟩
      · have hne : j ≠ k := by
          rintro rfl
          obtain rfl : q = { p with value := v } := Option.some.inj (hq.here.symm.trans hv)
          exact hsame hname.symm
        refine ⟨v, by rw [hq.getElem?_set, if_neg hne, hv], ?_⟩
        refine hvalue.imp ?_ ?_
        · exact fun ⟨raw, hlast, htyped⟩ => ⟨raw, hlast.concat fun heq => absurd heq hsame, htyped⟩
        · exact fun ⟨hnone, heq⟩ => ⟨hnone.concat fun heq => absurd heq hsame, heq⟩

/-- A parameter behind another one of its name is never changed. -/
theorem getElem?_assignAll_of_shadowed {j : Nat} (hp : h[k]? = some p) (hj : j < k)
    (hq : h[j]? = some q) (hname : q.name = p.name) (calls : List (String × String)) :
    (h.assignAll calls)[k]? = some p := by
  induction calls using List.reverseRecOn with
  | nil => exact hp
  | append_singleton calls call ih =>
    obtain ⟨name, raw⟩ := call
    rw [assignAll_concat]
    cases hcall : (h.assignAll calls).override name raw with
    | error fault => rwa [assign_of_error hcall]
    | ok h' =>
      rw [assign_of_ok hcall]
      obtain ⟨i, r, w, hr, -, -, rfl⟩ := override_eq_ok_iff.mp hcall
      have hne : i ≠ k := by
        rintro rfl
        obtain rfl : r = p := Option.some.inj (hr.here.symm.trans ih)
        obtain ⟨q', hq', hdeclared⟩ := exists_of_declared (declared_assignAll h calls) hq
        exact hr.first j q' hj hq' ((name_of_declared hdeclared).trans hname)
      rw [hr.getElem?_set, if_neg hne, ih]

/-- Overrides that are made one by one, refused or not, keep the declarations, and each is all or
nothing. An override is refused exactly if no parameter has its name, or the first one that has it
is an integer and the text is no number that fits a word; a refused one leaves the header as it is.
After all of them, the first parameter of each name holds the value of the last override for that
name that was accepted, or its own one where none was, and a later parameter of the same name is as
it was. -/
theorem assignAll_declared_values (h : Header) (calls : List (String × String)) :
    (h.assignAll calls).map (fun p => (p.name, p.address, p.value.kind)) =
      h.map (fun p => (p.name, p.address, p.value.kind)) ∧
    (∀ earlier name raw later, calls = earlier ++ (name, raw) :: later →
      let now := h.assignAll earlier
      let refused := ∃ fault, (now.set name raw).1 = .error fault
      (refused ↔ (∀ p ∈ now, p.name ≠ name) ∨ ∃ k p m, FirstAt now k p ∧ p.name = name ∧
        p.value = .int m ∧ ¬∃ n : Int64, Numeral.Typed raw.toList n.toInt) ∧
      (refused → h.assignAll (earlier ++ [(name, raw)]) = now)) ∧
    (∀ k p, FirstAt h k p → ∃ v, (h.assignAll calls)[k]? = some { p with value := v } ∧
      ((∃ raw, LastAccepted h calls p.name raw ∧ Value.Typed p.value.kind raw v) ∨
        NoneAccepted h calls p.name ∧ v = p.value)) ∧
    ∀ (j k : Nat) (q p : Parameter), j < k → h[j]? = some q → h[k]? = some p → q.name = p.name →
      (h.assignAll calls)[k]? = some p := by
  refine ⟨declared_assignAll h calls, fun earlier name raw later _ => ?refusals,
    fun k p hp => hp.assignAll calls, fun j k q p hj hq hp hname => ?later⟩
  case refusals =>
    simp only [fst_set_eq_error_iff]
    refine ⟨override_eq_error_iff, fun ⟨fault, hfault⟩ => ?_⟩
    rw [assignAll_concat, assign_of_error hfault]
  case later => exact getElem?_assignAll_of_shadowed hp hj hq hname calls

/-- A name that is declared twice, with two kinds. Behind an override that is accepted come one for
a name that there is not, one that is no number, and one that is a number beyond the range. -/
theorem assignAll_declared_values_twice :
    let h : Header := [⟨"n", 1, .int 3⟩, ⟨"s", 2, .str "y"⟩, ⟨"n", 3, .str "z"⟩]
    let calls := [("n", " +7\t"), ("q", "1"), ("n", "x"), ("s", "5"), ("n", "9223372036854775808")]
    FirstAt h 0 ⟨"n", 1, .int 3⟩ ∧
    h.assignAll calls = [⟨"n", 1, .int 7⟩, ⟨"s", 2, .str "5"⟩, ⟨"n", 3, .str "z"⟩] ∧
    (∃ raw, LastAccepted h calls "n" raw ∧ Value.Typed .int raw (.int 7)) ∧
    (h.assignAll calls)[2]? = some ⟨"n", 3, .str "z"⟩ ∧
    ¬∃ n : Int64, Numeral.Typed "x".toList n.toInt := by
  intro h calls
  obtain ⟨-, hcall, hfirst, hlater⟩ := assignAll_declared_values h calls
  have hn : FirstAt h 0 ⟨"n", 1, .int 3⟩ := firstAt_zero.mpr rfl
  have hfinal : h.assignAll calls = [⟨"n", 1, .int 7⟩, ⟨"s", 2, .str "5"⟩, ⟨"n", 3, .str "z"⟩] := by
    decide +kernel
  refine ⟨hn, hfinal, ?_, hlater 0 2 _ _ (by decide) rfl rfl rfl, ?_⟩
  · obtain ⟨v, hv, hvalue⟩ := hfirst 0 _ hn
    rw [hfinal] at hv
    cases hv
    obtain hlast | ⟨-, heq⟩ := hvalue
    · exact hlast
    · exact absurd heq (by decide)
  · obtain ⟨hrefused, -⟩ := hcall [("n", " +7\t"), ("q", "1")] "n" "x" _ rfl
    rcases hrefused.mp ⟨.notInteger "n" "x" .invalidDigit, by rfl⟩ with hnone |
      ⟨_, _, _, -, -, -, hnumber⟩
    · exact absurd rfl (hnone ⟨"n", 1, .int 7⟩ (by decide +kernel))
    · exact hnumber

end Header

end StackMachine
