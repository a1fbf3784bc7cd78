import ShaderInterface.Proofs.Outcome
import ShaderInterface.Reflection
import ShaderInterface.Reflection.Scripted

/-!
# From a report to an interface

What a context answers decides what reflection gives: the report of a context that accepts a pair
of texts is the list of its active variables (`Context.Accepts.value_report`), reflection gives the
interface that the report makes or the failures that were met (`value_reflect`), and a report makes
an interface exactly when the types of its variables are known and their slots can be counted
(`value_ofReport_eq_ok_iff`); else it fails with the first type that is not known
(`value_ofReport_of_firstUnknown?`), or is stopped by a sum that does not fit
(`value_ofReport_eq_overflow_iff`).
-/

namespace ShaderInterface.Reflection

open Glsl

variable {σ α β Shader Program : Type} {parse : Hint.Parser} {overflow : Overflow}

/-! ## Reports -/

theorem value_run_step_bind (x : Step σ α) (f : α → Step σ β) (s : σ) :
    ((x >>= f).run s).value = ((f (x.run s).value.1).run (x.run s).value.2).value := rfl

theorem value_run_liftM (x : Logged α) (s : σ) :
    ((liftM x : Step σ α).run s).value.1 = x.value := rfl

/-- From the state `s` on, the context compiles both texts, links them, and lists the active
variables of the report. -/
def Context.Accepts (context : Context σ Shader Program) (vertex fragment : String) (s : σ)
    (report : Report) : Prop :=
  ∃ v f p s₁ s₂ s₃ s₄ s₅ s₆,
    ((context.compile .vertex vertex).run s).value = (.ok v, s₁) ∧
    ((context.compile .fragment fragment).run s₁).value = (.ok f, s₂) ∧
    ((context.link v f).run s₂).value = (.ok p, s₃) ∧
    ((context.deleteShader v).run s₃).value = ((), s₄) ∧
    ((context.deleteShader f).run s₄).value = ((), s₅) ∧
    ((context.activeUniforms p).run s₅).value = (report.uniforms, s₆) ∧
    ((context.activeAttributes p).run s₆).value.1 = report.attributes

variable {context : Context σ Shader Program} {vertex fragment : String} {s : σ} {report : Report}

/-- Recording a failure changes nothing else. -/
theorem Context.value_compileRecorded (context : Context σ Shader Program) (stage : Stage)
    (text : String) (s : σ) :
    ((context.compileRecorded stage text).run s).value =
      ((context.compile stage text).run s).value := by
  rw [compileRecorded, value_run_step_bind]
  rcases ((context.compile stage text).run s).value with ⟨_ | _, s'⟩ <;> rfl

/-- A context that accepts a pair of texts reports its active variables. -/
theorem Context.Accepts.value_report (h : context.Accepts vertex fragment s report) :
    ((context.report vertex fragment).run s).value.1 = .ok report := by
  obtain ⟨v, f, p, s₁, s₂, s₃, s₄, s₅, s₆, hv, hf, hp, dv, df, hu, ha⟩ := h
  rw [Context.report, value_run_step_bind, value_compileRecorded, hv, value_run_step_bind,
    value_compileRecorded, hf]
  dsimp only
  rw [value_run_step_bind, hp, value_run_step_bind, dv, value_run_step_bind, df]
  dsimp only
  rw [value_run_step_bind, hu, value_run_step_bind, value_run_step_bind]
  change Except.ok ({ uniforms := report.uniforms, attributes := _ } : Report) = _
  rw [ha]

/-- A scripted context in which nothing fails accepts every pair of texts. -/
theorem Scripted.accepts (report : Report) (vertex fragment : String) (requests : List Request) :
    (Scripted.context { report }).Accepts vertex fragment requests report :=
  ⟨.vertex, .fragment, {}, _, _, _, _, _, _, rfl, rfl, rfl, rfl, rfl, rfl, rfl⟩

/-- Reflection gives the interface that the report makes, or records what failed. -/
theorem value_reflect (context : Context σ Shader Program) (vertex fragment : String) (s : σ) :
    ((reflect parse overflow context vertex fragment).run s).value.1 =
      match ((context.report vertex fragment).run s).value.1 with
      | .ok report => (ofReport parse overflow report vertex fragment).value
      | .error failures => .ok (.failed vertex fragment failures) := by
  rw [reflect, value_run_step_bind]
  cases ((context.report vertex fragment).run s).value.1 with
  | ok report => exact value_run_liftM (ofReport parse overflow report vertex fragment) _
  | error failures => rfl

/-- Of a context that accepts the texts reflection gives what the report makes. -/
theorem Context.Accepts.value_reflect (h : context.Accepts vertex fragment s report) :
    ((reflect parse overflow context vertex fragment).run s).value.1 =
      (ofReport parse overflow report vertex fragment).value := by
  rw [Reflection.value_reflect, h.value_report]

/-! ## Interfaces -/

/-- The variables of a list, each with the base type for which its tag stands. -/
def Typed (active : List ActiveVariable) (typed : List (ActiveVariable × BaseType)) : Prop :=
  List.Forall₂ (fun v t => t.1 = v ∧ BaseType.ofTag? v.tag = some t.2) active typed

theorem outcome_typed_eq_ok_iff {v : ActiveVariable} {t : ActiveVariable × BaseType} :
    (typed v).run.value = .ok t ↔ t.1 = v ∧ BaseType.ofTag? v.tag = some t.2 := by
  unfold typed baseType
  constructor
  · intro h
    obtain ⟨type, ht, h⟩ := value_run_bind_eq_ok_iff.mp h
    cases h
    exact ⟨rfl, outcome_ofOption_eq_ok_iff.mp ht⟩
  · rintro ⟨rfl, ht⟩
    exact value_run_bind_eq_ok_iff.mpr ⟨t.2, outcome_ofOption_eq_ok_iff.mpr ht, rfl⟩

/-- The tag of the variable stands for no base type. -/
def ActiveVariable.isUnknown (v : ActiveVariable) : Bool := (BaseType.ofTag? v.tag).isNone

theorem outcome_typed_of_isUnknown {v : ActiveVariable} (unknown : v.isUnknown) :
    (typed v).run.value = .error (.unknownTag v.name v.tag) := by
  refine value_run_bind_eq_error_iff.mpr (.inl ?_)
  rw [baseType, Option.isNone_iff_eq_none.mp unknown]
  rfl

/-- Typing a list of variables fails with the first that is unknown. -/
theorem value_run_mapM_typed_of_find? {active : List ActiveVariable} {v : ActiveVariable}
    (first : active.find? ActiveVariable.isUnknown = some v) :
    (active.mapM typed).run.value = .error (.unknownTag v.name v.tag) := by
  obtain ⟨unknown, before, after, rfl, known⟩ := List.find?_eq_some_iff_append.mp first
  refine value_run_mapM_eq_error (fun w hw => ?_) (outcome_typed_of_isUnknown unknown)
  have isSome : (BaseType.ofTag? w.tag).isSome := by
    simpa [ActiveVariable.isUnknown, Option.isSome_iff_ne_none] using known w hw
  obtain ⟨type, ht⟩ := Option.isSome_iff_exists.mp isSome
  exact ⟨(w, type), outcome_typed_eq_ok_iff.mpr ⟨rfl, ht⟩⟩

/-- Every variable has a base type where every tag is known. -/
theorem exists_typed {active : List ActiveVariable}
    (known : ∀ v ∈ active, (BaseType.ofTag? v.tag).isSome) : ∃ typed, Typed active typed := by
  refine exists_forall₂_iff.mpr fun v hv => ?_
  obtain ⟨type, ht⟩ := Option.isSome_iff_exists.mp (known v hv)
  exact ⟨(v, type), rfl, ht⟩

theorem exists_typed_of_find? {active : List ActiveVariable}
    (known : active.find? ActiveVariable.isUnknown = none) : ∃ typed, Typed active typed := by
  refine exists_typed fun v hv => ?_
  simpa [ActiveVariable.isUnknown, Option.isSome_iff_ne_none] using
    List.find?_eq_none.mp known v hv

/-- What the text of a stage says of the uniforms in the report. -/
def Report.said (report : Report) (parse : Hint.Parser) (text : String) : Declared :=
  (Declared.ofText parse text (report.uniforms.map ActiveVariable.declaredName)).value

/-- The vertex stage of a report, with the variables whose types are known. -/
def Report.vertexStage (report : Report) (parse : Hint.Parser) (vertex fragment : String)
    (uniforms attributes : List (ActiveVariable × BaseType)) : StageInterface :=
  attributes.foldl (fun i (a, type) => i.insertAttribute (attributeEntry a type))
    (stageInterface .vertex vertex (report.said parse vertex) (report.said parse fragment) uniforms)

/-- The fragment stage of a report, with the variables whose types are known. -/
def Report.fragmentStage (report : Report) (parse : Hint.Parser) (vertex fragment : String)
    (uniforms : List (ActiveVariable × BaseType)) : StageInterface :=
  stageInterface .fragment fragment (report.said parse fragment) (report.said parse vertex) uniforms

/-- The two stages of a report, merged. -/
def Report.merged (report : Report) (parse : Hint.Parser) (vertex fragment : String)
    (uniforms attributes : List (ActiveVariable × BaseType)) : ProgramInterface :=
  (report.vertexStage parse vertex fragment uniforms attributes).merge
    (report.fragmentStage parse vertex fragment uniforms)

/-- The stages of a report can be built when the tags of its variables are known. -/
theorem outcome_build_eq_ok_iff {p : ProgramInterface} :
    (build parse report vertex fragment).outcome = .ok p ↔
      ∃ us as, Typed report.uniforms us ∧ Typed report.attributes as ∧
        p = report.merged parse vertex fragment us as := by
  constructor
  · intro h
    obtain ⟨v, hv, h⟩ := value_run_bind_eq_ok_iff.mp h
    cases hv
    obtain ⟨f, hf, h⟩ := value_run_bind_eq_ok_iff.mp h
    cases hf
    obtain ⟨us, hus, h⟩ := value_run_bind_eq_ok_iff.mp h
    obtain ⟨as, has, h⟩ := value_run_bind_eq_ok_iff.mp h
    cases h
    refine ⟨us, as, ?_, ?_, rfl⟩
    · exact (value_run_mapM_eq_ok_iff.mp hus).imp fun _ _ => outcome_typed_eq_ok_iff.mp
    · exact (value_run_mapM_eq_ok_iff.mp has).imp fun _ _ => outcome_typed_eq_ok_iff.mp
  · rintro ⟨us, as, hus, has, rfl⟩
    have hus := hus.imp fun _ _ => outcome_typed_eq_ok_iff.mpr
    have has := has.imp fun _ _ => outcome_typed_eq_ok_iff.mpr
    refine value_run_bind_eq_ok_iff.mpr ⟨report.said parse vertex, rfl, ?_⟩
    refine value_run_bind_eq_ok_iff.mpr ⟨report.said parse fragment, rfl, ?_⟩
    refine value_run_bind_eq_ok_iff.mpr ⟨us, value_run_mapM_eq_ok_iff.mpr hus, ?_⟩
    exact value_run_bind_eq_ok_iff.mpr ⟨as, value_run_mapM_eq_ok_iff.mpr has, rfl⟩

/-- The first variable of a report whose type is not known, the uniforms before the attributes. -/
def Report.firstUnknown? (report : Report) : Option ActiveVariable :=
  (report.uniforms ++ report.attributes).find? ActiveVariable.isUnknown

theorem Report.firstUnknown?_eq_none_iff :
    report.firstUnknown? = none ↔
      ∀ v ∈ report.uniforms ++ report.attributes, BaseType.ofTag? v.tag ≠ none := by
  rw [firstUnknown?, List.find?_eq_none]
  simp only [ActiveVariable.isUnknown, Option.isNone_iff_eq_none, ne_eq]

/-- The stages of a report fail with the first variable whose type is not known. -/
theorem outcome_build_of_firstUnknown? {v : ActiveVariable}
    (first : report.firstUnknown? = some v) :
    (build parse report vertex fragment).outcome = .error (.unknownTag v.name v.tag) := by
  refine value_run_bind_eq_error_iff.mpr (.inr ⟨report.said parse vertex, rfl, ?_⟩)
  refine value_run_bind_eq_error_iff.mpr (.inr ⟨report.said parse fragment, rfl, ?_⟩)
  rw [Report.firstUnknown?, List.find?_append] at first
  cases uniforms : report.uniforms.find? ActiveVariable.isUnknown with
  | some u =>
    rw [uniforms, Option.some_or] at first
    cases first
    exact value_run_bind_eq_error_iff.mpr (.inl (value_run_mapM_typed_of_find? uniforms))
  | none =>
    rw [uniforms, Option.none_or] at first
    obtain ⟨us, hus⟩ := exists_typed_of_find? uniforms
    have hus := hus.imp fun _ _ => outcome_typed_eq_ok_iff.mpr
    refine value_run_bind_eq_error_iff.mpr (.inr ⟨us, value_run_mapM_eq_ok_iff.mpr hus, ?_⟩)
    exact value_run_bind_eq_error_iff.mpr (.inl (value_run_mapM_typed_of_find? first))

/-- The types of a report are all known where none is the first that is not. -/
theorem exists_typed_of_firstUnknown? (known : report.firstUnknown? = none) :
    ∃ us as, Typed report.uniforms us ∧ Typed report.attributes as := by
  rw [Report.firstUnknown?, List.find?_append, Option.or_eq_none_iff] at known
  obtain ⟨us, hus⟩ := exists_typed_of_find? known.1
  obtain ⟨as, has⟩ := exists_typed_of_find? known.2
  exact ⟨us, as, hus, has⟩

/-- The stages of a report whose types are all known can be built. -/
theorem exists_build (parse : Hint.Parser) (vertex fragment : String)
    (known : report.firstUnknown? = none) :
    ∃ us as, (build parse report vertex fragment).outcome =
      .ok (report.merged parse vertex fragment us as) := by
  obtain ⟨us, as, hus, has⟩ := exists_typed_of_firstUnknown? known
  exact ⟨us, as, outcome_build_eq_ok_iff.mpr ⟨us, as, hus, has, rfl⟩⟩

/-! ## Slots -/

theorem Overflow.slots?_eq_none_iff {active : List ActiveVariable} :
    overflow.slots? active = none ↔ overflow = .stops ∧ 2 ^ 32 ≤ slots active := by
  cases overflow <;> simp [slots?]

/-- A sum that fits is the number of slots, however the library is built. -/
theorem Overflow.slots?_of_lt (overflow : Overflow) {active : List ActiveVariable}
    (fits : slots active < 2 ^ 32) : overflow.slots? active = some (slots active) := by
  cases overflow with
  | stops => exact if_pos fits
  | wraps => exact congrArg some (Nat.mod_eq_of_lt fits)

/-- A sum of 32 bits is the number of slots, up to what 32 bits can tell. -/
theorem Overflow.eq_mod_of_slots? {active : List ActiveVariable} {n : Nat}
    (counted : overflow.slots? active = some n) : n = slots active % 2 ^ 32 := by
  cases overflow with
  | stops =>
    obtain ⟨fits, counted⟩ := Option.ite_none_right_eq_some.mp counted
    rw [← Option.some.inj counted, Nat.mod_eq_of_lt fits]
  | wraps => exact (Option.some.inj counted).symm

/-- The slots of a report can be counted: with overflow checks, its sums fit. -/
def Report.Fits (report : Report) (overflow : Overflow) : Prop :=
  overflow = .stops → slots report.uniforms < 2 ^ 32 ∧ slots report.attributes < 2 ^ 32

theorem counted?_eq_some_iff {p q : ProgramInterface} :
    counted? overflow report p = some q ↔
      ∃ us as, overflow.slots? report.uniforms = some us ∧
        overflow.slots? report.attributes = some as ∧
        q = { p with uniformSlots := us, attributeSlots := as } := by
  simp only [counted?, Option.bind_eq_bind, Option.bind_eq_some_iff, Option.pure_def,
    Option.some.injEq, eq_comm (a := q), exists_and_left]

theorem counted?_eq_none_iff {p : ProgramInterface} :
    counted? overflow report p = none ↔ ¬ report.Fits overflow := by
  have none : counted? overflow report p = none ↔
      overflow.slots? report.uniforms = none ∨ overflow.slots? report.attributes = none := by
    unfold counted?
    cases overflow.slots? report.uniforms <;> cases overflow.slots? report.attributes <;> simp
  rw [none, Overflow.slots?_eq_none_iff, Overflow.slots?_eq_none_iff, Report.Fits]
  grind

/-- The slots of a report are counted where they can be. -/
theorem exists_counted (p : ProgramInterface) (fits : report.Fits overflow) :
    ∃ q, counted? overflow report p = some q := by
  by_contra none
  exact counted?_eq_none_iff.mp
    (Option.eq_none_iff_forall_ne_some.mpr (not_exists.mp none)) fits

/-- What a report makes once its stages are built, or cannot be. -/
theorem value_ofReport (parse : Hint.Parser) (overflow : Overflow) (report : Report)
    (vertex fragment : String) :
    (ofReport parse overflow report vertex fragment).value =
      match (build parse report vertex fragment).outcome with
      | .error e => .error (.failure e)
      | .ok merged => (counted? overflow report merged).elim (.error .overflow) .ok := by
  rw [ofReport, Logged.value_bind]
  cases built : (build parse report vertex fragment).outcome with
  | error e =>
    rw [show (build parse report vertex fragment).attempt.value = _ from built]
    rfl
  | ok merged =>
    rw [show (build parse report vertex fragment).attempt.value = _ from built]
    dsimp only
    cases counted? overflow report merged <;> rfl

/-- A report fails exactly with what its stages fail with. -/
theorem value_ofReport_eq_failure_iff {e : Error} :
    (ofReport parse overflow report vertex fragment).value = .error (.failure e) ↔
      (build parse report vertex fragment).outcome = .error e := by
  rw [value_ofReport]
  cases (build parse report vertex fragment).outcome with
  | error e' => simp
  | ok merged =>
    dsimp only
    cases counted? overflow report merged <;> simp

/-- A report makes an interface when the tags of its variables are known and its slots can be
counted: the two stages merged, with the slots that the report counts. -/
theorem value_ofReport_eq_ok_iff {p : ProgramInterface} :
    (ofReport parse overflow report vertex fragment).value = .ok p ↔
      ∃ us as, Typed report.uniforms us ∧ Typed report.attributes as ∧
        counted? overflow report (report.merged parse vertex fragment us as) = some p := by
  rw [value_ofReport]
  constructor
  · intro made
    cases built : (build parse report vertex fragment).outcome with
    | error e =>
      rw [built] at made
      cases made
    | ok merged =>
      rw [built] at made
      obtain ⟨us, as, hus, has, rfl⟩ := outcome_build_eq_ok_iff.mp built
      exact ⟨us, as, hus, has, elim_eq_ok_iff.mp made⟩
  · rintro ⟨us, as, hus, has, counted⟩
    rw [outcome_build_eq_ok_iff.mpr ⟨us, as, hus, has, rfl⟩]
    exact elim_eq_ok_iff.mpr counted

/-- Of an interface that a report makes nothing failed. -/
theorem failures_ofReport {p : ProgramInterface}
    (made : (ofReport parse overflow report vertex fragment).value = .ok p) : p.failures = {} := by
  obtain ⟨us, as, -, -, counted⟩ := value_ofReport_eq_ok_iff.mp made
  obtain ⟨_, _, -, -, rfl⟩ := counted?_eq_some_iff.mp counted
  rfl

/-- A report fails with the first variable whose type is not known, whatever its slots are. -/
theorem value_ofReport_of_firstUnknown? {v : ActiveVariable}
    (first : report.firstUnknown? = some v) :
    (ofReport parse overflow report vertex fragment).value =
      .error (.failure (.unknownTag v.name v.tag)) :=
  value_ofReport_eq_failure_iff.mpr (outcome_build_of_firstUnknown? first)

/-- The slots of a report whose types are known stop the program exactly when they cannot be
counted. -/
theorem value_ofReport_eq_overflow_iff (known : report.firstUnknown? = none) :
    (ofReport parse overflow report vertex fragment).value = .error .overflow ↔
      ¬ report.Fits overflow := by
  obtain ⟨us, as, built⟩ := exists_build parse vertex fragment known
  rw [value_ofReport, built]
  exact elim_eq_error_iff.trans counted?_eq_none_iff

end ShaderInterface.Reflection
