import StackMachine.Command.Process
import StackMachine.Proofs.Payload

/-!
# Executables that start

An executable that carries a program starts by building options from the names of its parameters.
Embedding asks only that the source assembles, which says nothing about the names: an executable
starts exactly if no name is reserved and no two are alike (`Header.HasOptions`), and one that does
not start fails in the same way whatever its arguments are: for the first name that is reserved or
comes again (`FirstClash`). As with payloads, a source has fewer than `2 ^ 64` bytes.
-/

namespace StackMachine

/-- The names of the parameters can be options: none is reserved and no two are alike. -/
def Header.HasOptions (h : Header) : Prop :=
  (∀ p ∈ h, p.name ∉ Command.reservedNames) ∧ (h.map (·.name)).Nodup

instance (h : Header) : Decidable h.HasOptions := inferInstanceAs (Decidable (_ ∧ _))

namespace Command

/-! ## Names that clash -/

section
variable {seen names : List String} {name : String}

/-- A reserved name clashes. -/
theorem nameClash?_cons_of_reserved (hreserved : name ∈ reservedNames) :
    nameClash? seen (name :: names) = some (.reserved name) := by
  rw [nameClash?, if_pos (List.contains_iff_mem.mpr hreserved)]

/-- A name that was seen clashes. -/
theorem nameClash?_cons_of_seen (hreserved : name ∉ reservedNames) (hseen : name ∈ seen) :
    nameClash? seen (name :: names) = some (.repeated name) := by
  rw [nameClash?, if_neg (mt List.contains_iff_mem.mp hreserved),
    if_pos (List.contains_iff_mem.mpr hseen)]

/-- Any other name is passed, and has been seen from then on. -/
theorem nameClash?_cons_of_free (hreserved : name ∉ reservedNames) (hseen : name ∉ seen) :
    nameClash? seen (name :: names) = nameClash? (name :: seen) names := by
  rw [nameClash?, if_neg (mt List.contains_iff_mem.mp hreserved),
    if_neg (mt List.contains_iff_mem.mp hseen)]

/-- There is no clash exactly if no name is reserved, none was seen before and none comes twice. -/
theorem nameClash?_eq_none_iff :
    nameClash? seen names = none ↔
      (∀ name ∈ names, name ∉ reservedNames) ∧ (∀ name ∈ names, name ∉ seen) ∧ names.Nodup := by
  induction names generalizing seen with
  | nil => simp [nameClash?]
  | cons name names ih =>
    by_cases hreserved : name ∈ reservedNames
    · rw [nameClash?_cons_of_reserved hreserved]
      exact ⟨nofun, fun h => absurd hreserved (h.1 name List.mem_cons_self)⟩
    by_cases hseen : name ∈ seen
    · rw [nameClash?_cons_of_seen hreserved hseen]
      exact ⟨nofun, fun h => absurd hseen (h.2.1 name List.mem_cons_self)⟩
    rw [nameClash?_cons_of_free hreserved hseen, ih, List.forall_mem_cons, List.forall_mem_cons,
      List.nodup_cons]
    constructor
    · rintro ⟨hfree, hnew, hnodup⟩
      refine ⟨⟨hreserved, hfree⟩, ⟨hseen, fun n hn hs => ?_⟩, fun hn => ?_, hnodup⟩
      · exact hnew n hn (List.mem_cons_of_mem name hs)
      · exact hnew name hn List.mem_cons_self
    · rintro ⟨⟨-, hfree⟩, ⟨-, hnew⟩, hnotin, hnodup⟩
      refine ⟨hfree, fun n hn hs => ?_, hnodup⟩
      rcases List.mem_cons.mp hs with rfl | hs
      · exact hnotin hn
      · exact hnew n hn hs

/-- The name blamed is the first that is reserved or comes again, so one that was just seen stands
among those before it; a reserved one is blamed as such. -/
theorem exists_clash_of_nameClash? {clash : NameClash} (h : nameClash? seen names = some clash) :
    ∃ before name after, names = before ++ name :: after ∧ nameClash? seen before = none ∧
      (name ∈ reservedNames ∧ clash = .reserved name ∨
        name ∉ reservedNames ∧ (name ∈ seen ∨ name ∈ before) ∧ clash = .repeated name) := by
  induction names generalizing seen with
  | nil => cases h
  | cons first names ih =>
    by_cases hreserved : first ∈ reservedNames
    · rw [nameClash?_cons_of_reserved hreserved] at h
      exact ⟨[], first, names, rfl, rfl, .inl ⟨hreserved, (Option.some.inj h).symm⟩⟩
    by_cases hseen : first ∈ seen
    · rw [nameClash?_cons_of_seen hreserved hseen] at h
      exact ⟨[], first, names, rfl, rfl, .inr ⟨hreserved, .inl hseen, (Option.some.inj h).symm⟩⟩
    rw [nameClash?_cons_of_free hreserved hseen] at h
    obtain ⟨before, name, after, hnames, hbefore, hclash⟩ := ih h
    refine ⟨first :: before, name, after, congrArg (first :: ·) hnames, ?_, ?_⟩
    · rw [nameClash?_cons_of_free hreserved hseen, hbefore]
    · refine hclash.imp_right fun ⟨hfree, hagain, heq⟩ => ⟨hfree, ?_, heq⟩
      rcases hagain with hagain | hagain
      · exact (List.mem_cons.mp hagain).elim (fun h => .inr (h ▸ List.mem_cons_self)) .inl
      · exact .inr (List.mem_cons_of_mem first hagain)

end

/-- No name clashes exactly if all of them allow options. -/
theorem nameClash?_eq_none_iff_hasOptions {header : Header} :
    nameClash? [] (header.map (·.name)) = none ↔ header.HasOptions := by
  rw [nameClash?_eq_none_iff, Header.HasOptions, List.forall_mem_map]
  exact ⟨fun ⟨hfree, _, hnodup⟩ => ⟨hfree, hnodup⟩,
    fun ⟨hfree, hnodup⟩ => ⟨hfree, fun _ _ => List.not_mem_nil, hnodup⟩⟩

/-! ## Starting -/

/-- Names that allow options give the options. -/
theorem programOptions_of_hasOptions {header : Header} (h : header.HasOptions) :
    programOptions header = .ok (maxStepsOption :: header.map fun p => { name := p.name }) := by
  rw [programOptions, nameClash?_eq_none_iff_hasOptions.mpr h]

/-- The parameter `p` is the first one whose name cannot be an option, and `clash` says why. -/
def FirstClash (header : Header) (p : Parameter) (clash : NameClash) : Prop :=
  ∃ before after, header = before ++ p :: after ∧ Header.HasOptions before ∧
    (p.name ∈ reservedNames ∧ clash = .reserved p.name ∨
      p.name ∉ reservedNames ∧ (∃ q ∈ before, q.name = p.name) ∧ clash = .repeated p.name)

/-- Names that do not allow options clash, and the first clash is reported. -/
theorem exists_firstClash {header : Header} (h : ¬header.HasOptions) :
    ∃ p clash, FirstClash header p clash ∧ programOptions header = .error clash := by
  cases hclash : nameClash? [] (header.map (·.name)) with
  | none => exact absurd (nameClash?_eq_none_iff_hasOptions.mp hclash) h
  | some clash =>
    obtain ⟨names, name, rest, hnames, hbefore, hreason⟩ := exists_clash_of_nameClash? hclash
    obtain ⟨before, behind, rfl, rfl, hbehind⟩ := List.map_eq_append_iff.mp hnames
    obtain ⟨p, after, rfl, rfl, -⟩ := List.map_eq_cons_iff.mp hbehind
    refine ⟨p, clash, ⟨before, after, rfl, nameClash?_eq_none_iff_hasOptions.mp hbefore, ?_⟩, ?_⟩
    · refine hreason.imp_right fun ⟨hfree, hagain, heq⟩ => ⟨hfree, ?_, heq⟩
      exact List.mem_map.mp (hagain.resolve_left List.not_mem_nil)
    · rw [programOptions, hclash]

/-- Running a program never fails for the names of its parameters. -/
theorem planRun_ne_nameClash (a : Assembly.Assembled) (opts : RunOptions) (clash : NameClash) :
    planRun a opts ≠ .fail (.nameClash clash) := by
  unfold planRun
  split <;> exact nofun

/-- A source that assembles is embedded, and its image loads; but the image starts exactly if the
names of the parameters can be options. Otherwise it fails for the first that cannot, whatever its
arguments are. -/
theorem plan_embed_iff_hasOptions {source : ByteArray} {a : Assembly.Assembled}
    (hsource : source.size < 2 ^ 64) (h : Assembly.assemble source = .ok a) (host : ByteArray)
    (path : String) :
    (∀ view file output, view file = .bytes source →
      planInvocation ⟨path, .bytes host⟩ view (.embed file output) = .embed host file output) ∧
    Payload.load (Payload.embed host source) = .ok (some a) ∧
    ((∃ specs, programOptions a.header = .ok specs) ↔ a.header.HasOptions) ∧
    (a.header.HasOptions → ∀ view args clash,
      plan ⟨path, .bytes (Payload.embed host source)⟩ view args ≠ .fail (.nameClash clash)) ∧
    (¬a.header.HasOptions → ∃ p clash, FirstClash a.header p clash ∧ ∀ view args,
      plan ⟨path, .bytes (Payload.embed host source)⟩ view args = .fail (.nameClash clash)) := by
  have hload := Payload.load_embed hsource h host
  have hplan (view : String → FileView) (args : List String) :
      plan ⟨path, .bytes (Payload.embed host source)⟩ view args = planProgram a args := by
    have hfound : Executable.load ⟨path, .bytes (Payload.embed host source)⟩ = .ok (some a) := by
      rw [Executable.load]
      dsimp only
      rw [hload]
    rw [plan, hfound]
  refine ⟨?embeds, hload, ⟨?starts, fun hok => ⟨_, programOptions_of_hasOptions hok⟩⟩,
    ?runs, ?fails⟩
  case embeds =>
    intro view file output hview
    rw [planInvocation, hview, readSource, h]
  case starts =>
    rintro ⟨specs, hspecs⟩
    refine Decidable.byContradiction fun hno => ?_
    obtain ⟨_, _, -, herror⟩ := exists_firstClash hno
    rw [herror] at hspecs
    cases hspecs
  case runs =>
    intro hok view args clash hfail
    rw [hplan, planProgram, programOptions_of_hasOptions hok] at hfail
    dsimp only at hfail
    cases hopts : readProgramOptions a.header _ args with
    | none =>
      rw [hopts] at hfail
      cases hfail
    | some opts =>
      rw [hopts] at hfail
      exact planRun_ne_nameClash a opts clash hfail
  case fails =>
    intro hno
    obtain ⟨p, clash, hfirst, herror⟩ := exists_firstClash hno
    refine ⟨p, clash, hfirst, fun view args => ?_⟩
    rw [hplan, planProgram, herror]

/-- A parameter named as a built-in option: the source is embedded, and the image only fails. -/
theorem plan_embed_iff_hasOptions_help :
    let source := ";@param help 1 int 3\nout 1".toUTF8
    planInvocation ⟨"imp", .bytes "host".toUTF8⟩ (fun _ => .bytes source) (.embed "a" "b") =
        .embed "host".toUTF8 "a" "b" ∧
      ∃ clash, ∀ view args,
        plan ⟨"b", .bytes (Payload.embed "host".toUTF8 source)⟩ view args =
          .fail (.nameClash clash) := by
  intro source
  have hsize : source.size < 2 ^ 64 := by decide +kernel
  have hassemble : Assembly.assemble source = .ok ⟨#[.output 1], [⟨"help", 1, .int 3⟩]⟩ := rfl
  obtain ⟨hembeds, -⟩ := plan_embed_iff_hasOptions hsize hassemble "host".toUTF8 "imp"
  obtain ⟨-, -, -, -, hfails⟩ := plan_embed_iff_hasOptions hsize hassemble "host".toUTF8 "b"
  obtain ⟨p, clash, -, hclash⟩ := hfails (by decide)
  exact ⟨hembeds _ "a" "b" rfl, clash, hclash⟩

/-- Not every source that assembles has parameters that can be options. -/
theorem not_forall_programOptions_ok :
    ¬∀ (source : ByteArray) (a : Assembly.Assembled), Assembly.assemble source = .ok a →
      ∃ specs, programOptions a.header = .ok specs := by
  intro hall
  obtain ⟨specs, hspecs⟩ := hall ";@param a 1 int 3\n;@param a 2 int 4\nout 1".toUTF8
    ⟨#[.output 1], [⟨"a", 1, .int 3⟩, ⟨"a", 2, .int 4⟩]⟩ rfl
  cases hspecs

end Command

end StackMachine
