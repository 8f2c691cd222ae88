import Mathlib.Data.List.Nodup
import StackMachine.Proofs.Run
import StackMachine.Proofs.Startup
import StackMachine.Proofs.Typed

/-!
# Overrides in any order

Parameters are overridden one after the other, each by its name, and the first override that is
refused ends it all. An override reads the name and the kind of a parameter and changes its value
only, so two of them for different names do not see each other, and can change places
(`Header.override_swap`). Hence a list of overrides for distinct names gives the same header in
every order, or is refused in every order (`Header.overrideAll_perm`); which override is blamed
depends on the order.

An executable that carries a program takes the values in the order of the declarations, whatever
order they were typed in. They are the values that were typed, each for the parameter that it was
typed for (`perm_typedOverrides`), so it is bound as if they were taken in the order of the command
line (`planRun_overrides`).
-/

namespace StackMachine

/-! ## One override after the other -/

/-- An override keeps the name. -/
theorem Parameter.name_override {p p' : Parameter} {raw : String} (h : p.override raw = .ok p') :
    p'.name = p.name := by
  unfold Parameter.override at h
  split at h
  · split at h
    · cases h
    · cases h
      rfl
  · cases h
    rfl

namespace Header

variable {h h' : Header} {p : Parameter} {name raw : String}

/-- An override for the name of the first parameter is made there. -/
theorem override_cons_of_eq (hp : p.name = name) (h : Header) :
    override name raw (p :: h) = (p.override raw).map (· :: h) := by
  rw [override, if_pos hp]

/-- An override for another name is made behind the first parameter. -/
theorem override_cons_of_ne (hp : p.name ≠ name) (h : Header) :
    override name raw (p :: h) = (override name raw h).map (p :: ·) := by
  rw [override, if_neg hp]

/-- Two overrides for different names can change places: one of them is for the first parameter and
the other for one behind it, or both are for parameters behind it. -/
theorem override_swap {name₁ name₂ raw₁ raw₂ : String} (hne : name₁ ≠ name₂) {h₁ : Header}
    (hfirst : h.override name₁ raw₁ = .ok h₁) (hsecond : h₁.override name₂ raw₂ = .ok h') :
    ∃ h₂, h.override name₂ raw₂ = .ok h₂ ∧ h₂.override name₁ raw₁ = .ok h' := by
  induction h generalizing h₁ h' with
  | nil => cases hfirst
  | cons p ps ih =>
    by_cases hp₁ : p.name = name₁
    · have hp₂ : p.name ≠ name₂ := fun hp₂ => hne (hp₁.symm.trans hp₂)
      rw [override_cons_of_eq hp₁, map_eq_ok_iff] at hfirst
      obtain ⟨p', hp', rfl⟩ := hfirst
      rw [override_cons_of_ne ((Parameter.name_override hp').trans_ne hp₂),
        map_eq_ok_iff] at hsecond
      obtain ⟨ps', hps', rfl⟩ := hsecond
      refine ⟨p :: ps', ?_, ?_⟩
      · rw [override_cons_of_ne hp₂, hps', Except.map]
      · rw [override_cons_of_eq hp₁, hp', Except.map]
    · rw [override_cons_of_ne hp₁, map_eq_ok_iff] at hfirst
      obtain ⟨ps₁, hps₁, rfl⟩ := hfirst
      by_cases hp₂ : p.name = name₂
      · rw [override_cons_of_eq hp₂, map_eq_ok_iff] at hsecond
        obtain ⟨p', hp', rfl⟩ := hsecond
        refine ⟨p' :: ps, ?_, ?_⟩
        · rw [override_cons_of_eq hp₂, hp', Except.map]
        · rw [override_cons_of_ne ((Parameter.name_override hp').trans_ne hp₁), hps₁, Except.map]
      · rw [override_cons_of_ne hp₂, map_eq_ok_iff] at hsecond
        obtain ⟨ps', hps', rfl⟩ := hsecond
        obtain ⟨ps₂, hps₂, hps'⟩ := ih hps₁ hps'
        refine ⟨p :: ps₂, ?_, ?_⟩
        · rw [override_cons_of_ne hp₂, hps₂, Except.map]
        · rw [override_cons_of_ne hp₁, hps', Except.map]

/-- A list of overrides is accepted if the first one is and then the others are. -/
theorem overrideAll_cons_eq_ok_iff {first : String × String} {rest : List (String × String)} :
    h.overrideAll (first :: rest) = .ok h' ↔
      ∃ h₁, h.override first.1 first.2 = .ok h₁ ∧ h₁.overrideAll rest = .ok h' := by
  obtain ⟨name, raw⟩ := first
  rw [overrideAll, set_eq]
  cases h.override name raw <;> simp

/-- Overrides for distinct names give the same header in every order. -/
theorem overrideAll_perm {overrides overrides' : List (String × String)}
    (hperm : overrides.Perm overrides') (hnames : (overrides.map Prod.fst).Nodup)
    (hok : h.overrideAll overrides = .ok h') : h.overrideAll overrides' = .ok h' := by
  induction hperm generalizing h with
  | nil => exact hok
  | cons first _ ih =>
    obtain ⟨h₁, hfirst, hrest⟩ := overrideAll_cons_eq_ok_iff.mp hok
    rw [List.map_cons, List.nodup_cons] at hnames
    exact overrideAll_cons_eq_ok_iff.mpr ⟨h₁, hfirst, ih hnames.2 hrest⟩
  | swap second first rest =>
    obtain ⟨h₁, hfirst, hmore⟩ := overrideAll_cons_eq_ok_iff.mp hok
    obtain ⟨h₂, hsecond, hrest⟩ := overrideAll_cons_eq_ok_iff.mp hmore
    have hne : first.1 ≠ second.1 := by
      rw [List.map_cons, List.nodup_cons] at hnames
      exact fun heq => hnames.1 (heq ▸ List.mem_cons_self)
    obtain ⟨h₃, hsecond', hfirst'⟩ := override_swap hne hfirst hsecond
    exact overrideAll_cons_eq_ok_iff.mpr
      ⟨h₃, hsecond', overrideAll_cons_eq_ok_iff.mpr ⟨h₂, hfirst', hrest⟩⟩
  | trans hleft _ ihleft ihright =>
    exact ihright ((hleft.map Prod.fst).nodup_iff.mp hnames) (ihleft hnames hok)

end Header

namespace Command

/-! ## The options of an executable with a program -/

variable {specs : List OptionSpec} {args : List Argument} {header : Header} {name value : String}

/-- The parameters that were typed with their values, in the order of the command line. -/
def typedOverrides (args : List Argument) : List (String × String) :=
  args.filterMap fun
    | .positional _ => none
    | .option name value => if name = maxStepsOption.name then none else some (name, value)

/-- The parameters that have a value, in the order of the declarations. -/
def declaredOverrides (header : Header) (args : List Argument) : List (String × String) :=
  header.filterMap fun p => (valuesOf args p.name).head?.map fun raw => (p.name, raw)

/-- A value is among those for a name if it was typed for it. -/
theorem mem_valuesOf : value ∈ valuesOf args name ↔ .option name value ∈ args := by
  rw [valuesOf, List.mem_filterMap]
  constructor
  · rintro ⟨arg, harg, hvalue⟩
    cases arg with
    | positional word => cases hvalue
    | option name' value' =>
      obtain ⟨hname, hsame⟩ := Option.ite_none_right_eq_some.mp hvalue
      cases hname
      cases hsame
      exact harg
  · exact fun harg => ⟨_, harg, if_pos rfl⟩

/-- An override was typed if it is an option and not the limit. -/
theorem mem_typedOverrides :
    (name, value) ∈ typedOverrides args ↔
      .option name value ∈ args ∧ name ≠ maxStepsOption.name := by
  rw [typedOverrides, List.mem_filterMap]
  constructor
  · rintro ⟨arg, harg, hvalue⟩
    cases arg with
    | positional word => cases hvalue
    | option name' value' =>
      obtain ⟨hname, hsame⟩ := Option.ite_none_left_eq_some.mp hvalue
      cases hsame
      exact ⟨harg, hname⟩
  · rintro ⟨harg, hname⟩
    exact ⟨_, harg, if_neg hname⟩

/-- An override is declared if a parameter has the name and the value is the first for it. -/
theorem mem_declaredOverrides :
    (name, value) ∈ declaredOverrides header args ↔
      name ∈ header.map (·.name) ∧ (valuesOf args name).head? = some value := by
  simp only [declaredOverrides, List.mem_filterMap, List.mem_map, Option.map_eq_some_iff]
  constructor
  · rintro ⟨p, hp, raw, hraw, ⟨⟩⟩
    exact ⟨⟨p, hp, rfl⟩, hraw⟩
  · rintro ⟨⟨p, hp, rfl⟩, hraw⟩
    exact ⟨p, hp, value, hraw, rfl⟩

/-- Every option among the arguments is one of those that there are. -/
def Known (specs : List OptionSpec) (args : List Argument) : Prop :=
  ∀ name value, .option name value ∈ args → ∃ spec ∈ specs, spec.name = name

/-- An option that is read is one of those that there are. -/
theorem mem_of_readOption? {arg : String} {use : OptionUse}
    (h : readOption? specs arg = some (some use)) : use.spec ∈ specs := by
  unfold readOption? longOption? shortOption? at h
  split at h
  · split at h
    all_goals
      obtain ⟨spec, hspec, rfl⟩ := Option.map_eq_some_iff.mp (Option.some.inj h)
      exact List.mem_of_find?_eq_some hspec
  · obtain ⟨spec, hspec, rfl⟩ := Option.map_eq_some_iff.mp (Option.some.inj h)
    split <;> exact List.mem_of_find?_eq_some hspec
  · cases h

/-- An option that there is may be added in front. -/
theorem Known.cons {spec : OptionSpec} (hspec : spec ∈ specs) (value : String)
    (h : Known specs args) : Known specs (.option spec.name value :: args) := by
  intro name value' hmem
  rcases List.mem_cons.mp hmem with heq | hmem
  · cases heq
    exact ⟨spec, hspec, rfl⟩
  · exact h name value' hmem

/-- Only options that there are are read. -/
theorem known_of_readArguments {raws : List String} (h : readArguments specs raws = some args) :
    Known specs args := by
  fun_induction readArguments specs raws generalizing args with
  | case1 =>
    cases h
    nofun
  | case2 rest =>
    cases h
    intro name value hmem
    obtain ⟨word, -, heq⟩ := List.mem_map.mp hmem
    cases heq
  | case3 word rest _ _ ih =>
    obtain ⟨args', hargs', rfl⟩ := Option.map_eq_some_iff.mp h
    intro name value hmem
    exact ih hargs' name value ((List.mem_cons.mp hmem).resolve_left nofun)
  | case6 arg rest _ use hread _ _ ih =>
    obtain ⟨args', hargs', rfl⟩ := Option.map_eq_some_iff.mp h
    exact (ih hargs').cons (mem_of_readOption? hread) _
  | case7 arg rest _ use hread value _ _ ih =>
    obtain ⟨args', hargs', rfl⟩ := Option.map_eq_some_iff.mp h
    exact (ih hargs').cons (mem_of_readOption? hread) _
  | case9 arg _ use hread _ _ value rest _ ih =>
    obtain ⟨args', hargs', rfl⟩ := Option.map_eq_some_iff.mp h
    exact (ih hargs').cons (mem_of_readOption? hread) _
  | _ => cases h

/-- The values for a name when an option is added in front. -/
theorem valuesOf_option (name name' value : String) (args : List Argument) :
    valuesOf (.option name' value :: args) name =
      if name' = name then value :: valuesOf args name else valuesOf args name := by
  rw [valuesOf, List.filterMap_cons]
  by_cases hname : name' = name
  · simp only [if_pos hname, valuesOf]
  · simp only [if_neg hname, valuesOf]

/-- The overrides that were typed when an option is added in front. -/
theorem typedOverrides_option (name value : String) (args : List Argument) :
    typedOverrides (.option name value :: args) =
      if name = maxStepsOption.name then typedOverrides args
      else (name, value) :: typedOverrides args := by
  rw [typedOverrides, List.filterMap_cons]
  by_cases hname : name = maxStepsOption.name
  · simp only [if_pos hname, typedOverrides]
  · simp only [if_neg hname, typedOverrides]

/-- A name comes among the parameters that were typed at most as often as values were typed for
it. -/
theorem count_typedOverrides_le (args : List Argument) (name : String) :
    ((typedOverrides args).map Prod.fst).count name ≤ (valuesOf args name).length := by
  induction args with
  | nil => exact Nat.le_refl 0
  | cons arg args ih =>
    cases arg with
    | positional word => exact ih
    | option name' value =>
      rw [typedOverrides_option, valuesOf_option]
      split
      · split
        · exact Nat.le_succ_of_le ih
        · exact ih
      · rw [List.map_cons, List.count_cons]
        by_cases hname : name' = name
        · rw [if_pos hname, if_pos (beq_iff_eq.mpr hname)]
          exact Nat.succ_le_succ ih
        · rw [if_neg hname, if_neg (mt beq_iff_eq.mp hname)]
          exact ih

/-- A value that was typed once is the first for its name. -/
theorem head?_valuesOf (hcount : (valuesOf args name).length ≤ 1)
    (hmem : .option name value ∈ args) : (valuesOf args name).head? = some value := by
  have hvalue := mem_valuesOf.mpr hmem
  obtain ⟨only, honly⟩ :=
    List.length_eq_one_iff.mp (Nat.le_antisymm hcount (List.length_pos_of_mem hvalue))
  rw [honly, List.mem_singleton] at hvalue
  rw [honly, hvalue, List.head?_cons]

/-- The names that were typed are distinct if no option was typed twice. -/
theorem nodup_typedOverrides
    (hcounts : ∀ name value, .option name value ∈ args → (valuesOf args name).length ≤ 1) :
    ((typedOverrides args).map Prod.fst).Nodup := by
  refine List.nodup_iff_count.mpr fun name => ?_
  by_cases hmem : name ∈ (typedOverrides args).map Prod.fst
  · obtain ⟨⟨name, value⟩, hvalue, rfl⟩ := List.mem_map.mp hmem
    exact Nat.le_trans (count_typedOverrides_le args name)
      (hcounts name value (mem_typedOverrides.mp hvalue).1)
  · rw [List.count_eq_zero_of_not_mem hmem]
    exact Nat.zero_le 1

/-- The names that have a value come in the order of the declarations. -/
theorem sublist_declaredOverrides (header : Header) (args : List Argument) :
    ((declaredOverrides header args).map Prod.fst).Sublist (header.map (·.name)) := by
  induction header with
  | nil => exact .slnil
  | cons p ps ih =>
    rw [declaredOverrides, List.filterMap_cons]
    cases (valuesOf args p.name).head? with
    | none => exact ih.cons _
    | some value => exact ih.cons_cons _

/-- Options for the parameters and the limit can be read if the names of the parameters allow it. -/
theorem programOptions_eq_ok_iff :
    programOptions header = .ok specs ↔
      header.HasOptions ∧ specs = maxStepsOption :: header.map fun p => { name := p.name } := by
  constructor
  · intro h
    have hoptions : header.HasOptions := by
      refine Decidable.byContradiction fun hno => ?_
      obtain ⟨_, _, -, herror⟩ := exists_firstClash hno
      cases h.symm.trans herror
    exact ⟨hoptions, Except.ok.inj (h.symm.trans (programOptions_of_hasOptions hoptions))⟩
  · rintro ⟨hoptions, rfl⟩
    exact programOptions_of_hasOptions hoptions

/-- Arguments are parsed if they are read and none comes too often. -/
theorem parseArguments_eq_some_iff {raws : List String} :
    parseArguments specs raws = some args ↔
      readArguments specs raws = some args ∧ withinCounts specs args = true := by
  simp [parseArguments, Option.bind_eq_some_iff, guard]

/-- The overrides of an executable are those of the declarations. -/
theorem readProgramOptions_eq_some {raws : List String} {opts : RunOptions}
    (h : readProgramOptions header specs raws = some opts) :
    ∃ args, parseArguments specs raws = some args ∧
      opts.overrides = declaredOverrides header args := by
  unfold readProgramOptions at h
  obtain ⟨args, hargs, h⟩ := Option.bind_eq_some_iff.mp h
  obtain ⟨maxSteps, -, h⟩ := Option.bind_eq_some_iff.mp h
  cases h
  exact ⟨args, hargs, rfl⟩

/-- An option that is not to be repeated was typed at most once. -/
theorem length_valuesOf_le_one (hknown : Known specs args)
    (honce : ∀ spec ∈ specs, spec.repeatable = false)
    (hwithin : withinCounts specs args = true) (hmem : .option name value ∈ args) :
    (valuesOf args name).length ≤ 1 := by
  obtain ⟨spec, hspec, rfl⟩ := hknown name value hmem
  have hcount := List.all_eq_true.mp hwithin spec hspec
  rwa [honce spec hspec, Bool.false_or, decide_eq_true_eq] at hcount

/-- The values that an executable takes in the order of the declarations are those that were typed,
each for its parameter and at most one for each: an option that is known and is not the limit is a
parameter. -/
theorem perm_typedOverrides {raws : List String} (hspecs : programOptions header = .ok specs)
    (h : parseArguments specs raws = some args) :
    (declaredOverrides header args).Perm (typedOverrides args) ∧
      ((typedOverrides args).map Prod.fst).Nodup := by
  obtain ⟨⟨hfree, hnames⟩, rfl⟩ := programOptions_eq_ok_iff.mp hspecs
  obtain ⟨hread, hwithin⟩ := parseArguments_eq_some_iff.mp h
  have hknown := known_of_readArguments hread
  have honce : ∀ spec ∈ maxStepsOption :: header.map fun p => { name := p.name },
      spec.repeatable = false := by
    intro spec hspec
    rcases List.mem_cons.mp hspec with rfl | hspec
    · rfl
    · obtain ⟨p, -, rfl⟩ := List.mem_map.mp hspec
      rfl
  have hcounts : ∀ name value, .option name value ∈ args → (valuesOf args name).length ≤ 1 :=
    fun _ _ hmem => length_valuesOf_le_one hknown honce hwithin hmem
  have htyped := nodup_typedOverrides hcounts
  have hdeclared := hnames.sublist (sublist_declaredOverrides header args)
  refine ⟨(List.perm_ext_iff_of_nodup (hdeclared.of_map Prod.fst) (htyped.of_map Prod.fst)).mpr
    ?_, htyped⟩
  rintro ⟨name, value⟩
  rw [mem_declaredOverrides, mem_typedOverrides]
  constructor
  · rintro ⟨hname, hvalue⟩
    refine ⟨mem_valuesOf.mp (List.mem_of_head? hvalue), ?_⟩
    rintro rfl
    obtain ⟨p, hp, hpname⟩ := List.mem_map.mp hname
    exact hfree p hp (by rw [hpname]; decide)
  · rintro ⟨hmem, hname⟩
    refine ⟨?_, head?_valuesOf (hcounts name value hmem) hmem⟩
    obtain ⟨spec, hspec, rfl⟩ := hknown name value hmem
    rcases List.mem_cons.mp hspec with rfl | hspec
    · exact absurd rfl hname
    · obtain ⟨p, hp, rfl⟩ := List.mem_map.mp hspec
      exact List.mem_map_of_mem hp

/-! ## Executing -/

/-- What a planned run comes to: a refusal, or the end of the run on an empty memory. A run that
does not end comes to nothing. -/
inductive Action.ComesTo : Action → Outcome → Prop
  | fail (failure : Failure) : ComesTo (.fail failure) (.ofFailure failure)
  | run {program : Program} {limit : Option Nat} {final : Machine}
    (hends : Machine.Ends program limit {} final) :
    ComesTo (.run program limit) (.ofRun final)

/-- What is refused fails and prints nothing. -/
theorem Action.ComesTo.of_fail {failure : Failure} {outcome : Outcome}
    (h : (Action.fail failure).ComesTo outcome) :
    outcome.code = failureCode ∧ outcome.stdout = "" := by
  cases h
  exact ⟨rfl, rfl⟩

variable {a : Assembly.Assembled} {opts opts' : RunOptions}

/-- The overrides matter only for the header that they give. -/
theorem bootProgram_congr
    (hheader : a.header.overrideAll opts.overrides = a.header.overrideAll opts'.overrides)
    (hpresets : opts.presets = opts'.presets) : bootProgram a opts = bootProgram a opts' := by
  rw [bootProgram, bootProgram, boot, boot, hheader, hpresets]

/-- Nothing is run if an override is refused. -/
theorem planRun_of_refused {fault : Parameter.Fault}
    (h : a.header.overrideAll opts.overrides = .error fault) :
    planRun a opts = .fail (.boot (.override fault)) := by
  rw [planRun, bootProgram, boot, h]
  rfl

/-- The two command lines bind parameters alike. Overrides for distinct names can be taken in any
order: the headers are the same, and so are the program that is run and all that can come of it, or
in both orders an override is refused, nothing is run and nothing is printed. What an executable
with a program takes in the order of the declarations is, in another order, what was typed for its
parameters. -/
theorem planRun_overrides (a : Assembly.Assembled) :
    (∀ overrides overrides' : List (String × String), overrides.Perm overrides' →
      (overrides.map Prod.fst).Nodup → ∀ presets maxSteps,
      let opts : RunOptions := { overrides, presets, maxSteps }
      let opts' : RunOptions := { overrides := overrides', presets, maxSteps }
      (∃ header, a.header.overrideAll overrides = .ok header ∧
        a.header.overrideAll overrides' = .ok header ∧
        bootProgram a opts = bootProgram a opts' ∧ planRun a opts = planRun a opts' ∧
        ∀ outcome, (planRun a opts).ComesTo outcome ↔ (planRun a opts').ComesTo outcome) ∨
      ∃ fault fault', a.header.overrideAll overrides = .error fault ∧
        a.header.overrideAll overrides' = .error fault' ∧
        planRun a opts = .fail (.boot (.override fault)) ∧
        planRun a opts' = .fail (.boot (.override fault')) ∧
        ∀ outcome, (planRun a opts).ComesTo outcome ∨ (planRun a opts').ComesTo outcome →
          outcome.code = failureCode ∧ outcome.stdout = "") ∧
    ∀ specs raws opts, programOptions a.header = .ok specs →
      readProgramOptions a.header specs raws = some opts →
      planProgram a raws = planRun a opts ∧
      ∃ args, parseArguments specs raws = some args ∧ opts.overrides.Perm (typedOverrides args) ∧
        (opts.overrides.map Prod.fst).Nodup := by
  constructor
  · intro overrides overrides' hperm hnames presets maxSteps opts opts'
    cases hheader : a.header.overrideAll overrides with
    | ok header =>
      have hheader' := Header.overrideAll_perm hperm hnames hheader
      have hboot : bootProgram a opts = bootProgram a opts' :=
        bootProgram_congr (hheader.trans hheader'.symm) rfl
      have hplan : planRun a opts = planRun a opts' := by rw [planRun, planRun, hboot]
      exact .inl ⟨header, rfl, hheader', hboot, hplan, fun outcome => by rw [hplan]⟩
    | error fault =>
      cases hheader' : a.header.overrideAll overrides' with
      | ok header =>
        have hnames' := (hperm.map Prod.fst).nodup_iff.mp hnames
        cases hheader.symm.trans (Header.overrideAll_perm hperm.symm hnames' hheader')
      | error fault' =>
        have hplan : planRun a opts = .fail (.boot (.override fault)) := planRun_of_refused hheader
        have hplan' : planRun a opts' = .fail (.boot (.override fault')) :=
          planRun_of_refused hheader'
        refine .inr ⟨fault, fault', rfl, rfl, hplan, hplan', fun outcome houtcome => ?_⟩
        rw [hplan, hplan'] at houtcome
        exact houtcome.elim (·.of_fail) (·.of_fail)
  · intro specs raws opts hspecs hopts
    obtain ⟨args, hargs, hoverrides⟩ := readProgramOptions_eq_some hopts
    obtain ⟨hperm, hnames⟩ := perm_typedOverrides hspecs hargs
    refine ⟨?_, args, hargs, hoverrides ▸ hperm, ?_⟩
    · rw [planProgram, hspecs]
      dsimp only
      rw [hopts]
    · rw [hoverrides]
      exact (hperm.map Prod.fst).nodup_iff.mpr hnames

/-- The values of two parameters, typed in the order that is not the one of their declarations; and
two overrides that are both refused, of which each order blames another. -/
theorem planRun_overrides_typed :
    let header : Header := [⟨"n", 1, .int 3⟩, ⟨"s", 2, .str "y"⟩]
    let a : Assembly.Assembled := { program := #[.output 1, .output 2], header }
    let specs : List OptionSpec := maxStepsOption :: header.map fun p => { name := p.name }
    let raws := ["--s=z", "--max-steps", "9", "--n", "7"]
    let opts : RunOptions := { overrides := [("n", "7"), ("s", "z")], maxSteps := some 9 }
    let typed : RunOptions := { overrides := [("s", "z"), ("n", "7")], maxSteps := some 9 }
    let wrong : RunOptions := { overrides := [("q", "1"), ("n", "x")] }
    let wrong' : RunOptions := { overrides := [("n", "x"), ("q", "1")] }
    programOptions header = .ok specs ∧ readProgramOptions header specs raws = some opts ∧
    planProgram a raws = planRun a opts ∧
    (∃ args, parseArguments specs raws = some args ∧ typedOverrides args = typed.overrides ∧
      opts.overrides.Perm (typedOverrides args)) ∧
    planRun a opts = planRun a typed ∧
    header.overrideAll wrong.overrides = .error (.unknown "q") ∧
    header.overrideAll wrong'.overrides = .error (.notInteger "n" "x" .invalidDigit) ∧
    planRun a wrong = .fail (.boot (.override (.unknown "q"))) ∧
    planRun a wrong' = .fail (.boot (.override (.notInteger "n" "x" .invalidDigit))) := by
  intro header a specs raws opts typed wrong wrong'
  have hspecs : programOptions header = .ok specs := programOptions_of_hasOptions (by decide)
  have hopts : readProgramOptions header specs raws = some opts := by decide +kernel
  obtain ⟨hany, hprogram⟩ := planRun_overrides a
  obtain ⟨hplan, args, hargs, hperm, hnames⟩ := hprogram specs raws opts hspecs hopts
  have htyped : typedOverrides args = typed.overrides := by
    have hread : parseArguments specs raws =
        some [.option "s" "z", .option "max-steps" "9", .option "n" "7"] := by decide +kernel
    cases hargs.symm.trans hread
    decide +kernel
  refine ⟨hspecs, hopts, hplan, ⟨args, hargs, htyped, hperm⟩, ?_, ?_⟩
  · rcases hany opts.overrides typed.overrides (htyped ▸ hperm) hnames [] (some 9) with
      ⟨_, -, -, -, hsame, -⟩ | ⟨fault, _, hfault, -⟩
    · exact hsame
    · have hok : (header.overrideAll opts.overrides).isOk = true := by decide +kernel
      rw [hfault] at hok
      cases hok
  · have hwrong : header.overrideAll wrong.overrides = .error (.unknown "q") := by decide +kernel
    have hwrong' :
        header.overrideAll wrong'.overrides = .error (.notInteger "n" "x" .invalidDigit) := by
      decide +kernel
    rcases hany wrong.overrides wrong'.overrides (.swap _ _ _) (by decide) [] none with
      ⟨_, hok, -⟩ | ⟨fault, fault', hfault, hfault', hfails, hfails', -⟩
    · cases hwrong.symm.trans hok
    · cases hwrong.symm.trans hfault
      cases hwrong'.symm.trans hfault'
      exact ⟨hwrong, hwrong', hfails, hfails'⟩

end Command

end StackMachine
