import Mathlib.Data.List.ReduceOption
import ShaderInterface.Hint.Reader
import ShaderInterface.Proofs.Reflection.Entries

/-!
# The hints of the analysis and of reflection

Both read the hints of a stage from the same declarations, in their order, and merge those of two
stages alike. They differ in what a redeclaration does: the analysis takes out the hint of the
earlier declaration, so that the last declaration decides; reflection keeps it, so that the last
declaration with a hint decides (`hints_of_comparable`). The hints agree where the last declaration
of every name carries a hint or none of its declarations does.
-/

namespace ShaderInterface

open Glsl
open Analysis (uniformDeclarations)

/-! ## The hints that a text gives -/

/-- The hint that a declaration carries, if it carries one that can be read. -/
def Declaration.carried (parse : Hint.Parser) (d : Declaration) : Option Hint.Fields :=
  (Hint.ofTrailing parse d.trailing.toList).toOption.join

/-- What the declarations of a name carry, in their order. -/
def carriedBy (parse : Hint.Parser) (text name : String) : List (Option Hint.Fields) :=
  ((uniformDeclarations text).filter (·.name = name)).map (·.carried parse)

/-- The hint of the last declaration of a name. -/
def hintOfLast (parse : Hint.Parser) (text name : String) : Option Hint.Fields :=
  (carriedBy parse text name).getLast?.join

/-- The last hint that a declaration of a name carries. -/
def lastHint (parse : Hint.Parser) (text name : String) : Option Hint.Fields :=
  (carriedBy parse text name).reduceOption.getLast?

/-- The last declaration of a name decides on its hint: when it carries none, none does. -/
def LastDecides (parse : Hint.Parser) (text name : String) : Prop :=
  (carriedBy parse text name).getLast? = some none → ∀ h ∈ carriedBy parse text name, h = none

theorem hintOfLast_eq_lastHint_iff {parse : Hint.Parser} {text name : String} :
    hintOfLast parse text name = lastHint parse text name ↔ LastDecides parse text name := by
  unfold hintOfLast lastHint LastDecides
  rcases List.eq_nil_or_concat' (carriedBy parse text name) with hs | ⟨hs, h, hl⟩
  · simp [hs]
  · rw [hl, List.getLast?_concat]
    cases h with
    | some fields => simp [List.reduceOption_append]
    | none =>
      have dropped : (hs ++ [none]).reduceOption = hs.reduceOption := by
        simp [List.reduceOption_append]
      rw [dropped, eq_comm, Option.join_some, List.getLast?_eq_none_iff, List.reduceOption,
        List.filterMap_eq_nil_iff]
      simp [or_imp]

/-! ## The hints of an analysed stage -/

namespace Analysis

variable {parse : Hint.Parser} {which : Stage} {text name : String} {i : StageInterface}

/-- Of the readings of a name the last decides on the hint. -/
theorem getElem?_hints_foldl_declareUniform (rs : List UniformReading) (i : StageInterface)
    (name : String) :
    (rs.foldl declareUniform i).hints[name]? =
      match ((rs.filter (·.name = name)).map (·.hint)).getLast? with
      | some hint => hint
      | none => i.hints[name]? := by
  induction rs using List.reverseRecOn with
  | nil => rfl
  | append_singleton rs r ih =>
    rw [List.foldl_append, List.foldl_cons, List.foldl_nil, getElem?_hints_declareUniform,
      List.filter_append]
    by_cases same : r.name = name
    · rw [if_pos same, List.filter_cons_of_pos (by simpa using same)]
      simp
    · rw [if_neg same, List.filter_cons_of_neg (by simpa using same), ih]
      simp

theorem hints_assemble (which : Stage) (text : String) (rs : List UniformReading)
    (as : List Attribute) :
    (assemble which text rs as).hints =
      (rs.foldl declareUniform { stage := which, source := text }).hints := by
  rw [assemble, foldl_insertAttribute]

theorem Reads.carried {scope : Scope} {d : Declaration} {r : UniformReading}
    (h : Reads scope d r) : d.carried scope.parse = r.hint := by
  rw [Declaration.carried, h.hint]
  rfl

/-- The readings of a name have the hints that its declarations carry. -/
theorem map_hint_filter_eq {scope : Scope} {ds : List Declaration} {rs : List UniformReading}
    (h : List.Forall₂ (Reads scope) ds rs) (name : String) :
    (rs.filter (·.name = name)).map (·.hint) =
      (ds.filter (·.name = name)).map (·.carried scope.parse) := by
  induction h with
  | nil => rfl
  | @cons d r ds rs hdr _ ih =>
    rw [List.filter_cons, List.filter_cons, hdr.name]
    split
    · rw [List.map_cons, List.map_cons, ih, hdr.carried]
    · exact ih

/-- The hint of a name is the one of its last declaration. -/
theorem getElem?_hints_stage (noMacros : Macro.definitions (Comment.blank text.toList) = [])
    (h : (stage parse {} which text).outcome = .ok i) (name : String) :
    i.hints[name]? = hintOfLast parse text name := by
  obtain ⟨rs, as, hrs, rfl⟩ := exists_reads_of_stage noMacros h
  have readings : (rs.filter (·.name = name)).map (·.hint) = carriedBy parse text name :=
    map_hint_filter_eq hrs name
  rw [hints_assemble, getElem?_hints_foldl_declareUniform, readings, hintOfLast]
  cases (carriedBy parse text name).getLast? with
  | none => simp
  | some hint => rfl

/-- Every declaration of a stage that is analysed carries a hint that can be read, or no
comment. -/
theorem ofTrailing_of_stage (noMacros : Macro.definitions (Comment.blank text.toList) = [])
    (h : (stage parse {} which text).outcome = .ok i) :
    ∀ d ∈ uniformDeclarations text,
      Hint.ofTrailing parse d.trailing.toList = .ok (d.carried parse) := by
  obtain ⟨rs, as, hrs, -⟩ := exists_reads_of_stage noMacros h
  intro d hd
  obtain ⟨r, hr⟩ := exists_forall₂_iff.mp ⟨rs, hrs⟩ d hd
  have carried : d.carried parse = r.hint := hr.carried
  rw [carried]
  exact hr.hint

end Analysis

/-! ## The hints of a reflected stage -/

namespace Reflection

variable {parse : Hint.Parser} {text name : String} {report : Report}

/-- A hint that comes in takes the place of the one that is there. -/
theorem getElem?_hints_declare (said : Declared) (d : Declaration) (hint : Option Hint.Fields)
    (name : String) :
    (said.declare d hint).hints[name]? =
      if d.name = name then hint.or said.hints[name]? else said.hints[name]? := by
  cases hint with
  | none =>
    show said.hints[name]? = _
    simp
  | some fields => exact NameMap.getElem?_insert' said.hints d.name name fields

/-- Of the hints that come in for a name the last counts; a declaration without one is passed
over. -/
theorem getElem?_hints_foldl_declare (ds : List Declaration) (name : String) :
    (ds.foldl (fun said d => Declared.declare said d (d.carried parse)) {}).hints[name]? =
      ((ds.filter (·.name = name)).map (·.carried parse)).reduceOption.getLast? := by
  induction ds using List.reverseRecOn with
  | nil => simp
  | append_singleton ds d ih =>
    rw [List.foldl_append, List.foldl_cons, List.foldl_nil, getElem?_hints_declare, ih,
      List.filter_append, List.map_append, List.reduceOption_append, List.getLast?_append]
    by_cases same : d.name = name
    · rw [if_pos same, List.filter_cons_of_pos (by simpa using same)]
      cases hd : d.carried parse <;> simp [hd]
    · rw [if_neg same, List.filter_cons_of_neg (by simpa using same)]
      simp

theorem value_hint {d : Declaration}
    (h : Hint.ofTrailing parse d.trailing.toList = .ok (d.carried parse)) :
    (Declared.hint parse d).value = d.carried parse := by
  rw [Declared.hint, h]
  rfl

/-- Where every declared name is active, all declarations of a text are found. -/
theorem scan_of_listed {active : List String}
    (listed : ∀ d ∈ uniformDeclarations text, d.name ∈ active) :
    Declaration.scan (Comment.blank text.toList) text.toList .uniform (fun name => name ∈ active) =
      uniformDeclarations text := by
  rw [scan_eq_filter, ← uniformDeclarations, List.filter_eq_self]
  simpa using listed

/-- The hint of a name is the last that a declaration of it carries, where every declared name is
active and every hint can be read. -/
theorem getElem?_hints_said
    (listed : ∀ d ∈ uniformDeclarations text,
      d.name ∈ report.uniforms.map ActiveVariable.declaredName)
    (readable : ∀ d ∈ uniformDeclarations text,
      Hint.ofTrailing parse d.trailing.toList = .ok (d.carried parse)) (name : String) :
    (report.said parse text).hints[name]? = lastHint parse text name := by
  have carried : ((uniformDeclarations text).mapM (Declared.hint parse)).value =
      (uniformDeclarations text).map (·.carried parse) := by
    rw [Logged.value_mapM]
    exact List.map_congr_left fun d hd => value_hint (readable d hd)
  have said : report.said parse text =
      (uniformDeclarations text).foldl
        (fun said d => Declared.declare said d (d.carried parse)) {} := by
    rw [Report.said, Declared.ofText, Declaration.scanned, scan_of_listed listed]
    simp only [Logged.value_bind, Logged.value_pure, carried]
    rw [← List.map_prod_left_eq_zip, List.foldl_map]
  rw [said, getElem?_hints_foldl_declare, lastHint, carriedBy]

/-- Taking in uniforms and attributes leaves the hints of a stage alone. -/
theorem hints_stageInterface (stage : Stage) (text : String) (said other : Declared)
    (uniforms : List (ActiveVariable × BaseType)) :
    (stageInterface stage text said other uniforms).hints = said.hints := by
  rw [stageInterface_eq]

theorem hints_vertexStage (report : Report) (parse : Hint.Parser) (vertex fragment : String)
    (us as : List (ActiveVariable × BaseType)) :
    (report.vertexStage parse vertex fragment us as).hints = (report.said parse vertex).hints := by
  rw [Report.vertexStage_eq, hints_stageInterface]

end Reflection

/-! ## Both of a program -/

section Program

open Reflection

variable {σ Shader Program : Type} {parse : Hint.Parser} {overflow : Overflow}
  {context : Context σ Shader Program} {s : σ} {report : Report} {vertex fragment : String}
  {M : ProgramInterface}

/-- A program that can be analysed and reflected: its texts define no macro, the analysis gives the
interface `M`, and the context accepts the texts and reports variables of known types whose slots
can be counted, among them all uniforms that the texts declare. -/
structure Comparable (parse : Hint.Parser) (overflow : Overflow)
    (context : Context σ Shader Program) (s : σ) (report : Report) (vertex fragment : String)
    (M : ProgramInterface) : Prop where
  vertexMacros : Macro.definitions (Comment.blank vertex.toList) = []
  fragmentMacros : Macro.definitions (Comment.blank fragment.toList) = []
  analysed : (Analysis.program parse {} vertex fragment).outcome = .ok M
  accepts : context.Accepts vertex fragment s report
  uniformTypes : ∀ v ∈ report.uniforms, (BaseType.ofTag? v.tag).isSome
  attributeTypes : ∀ v ∈ report.attributes, (BaseType.ofTag? v.tag).isSome
  fits : report.Fits overflow
  vertexListed : ∀ d ∈ uniformDeclarations vertex,
    d.name ∈ report.uniforms.map ActiveVariable.declaredName
  fragmentListed : ∀ d ∈ uniformDeclarations fragment,
    d.name ∈ report.uniforms.map ActiveVariable.declaredName

/-- The analysis gives a name the hints of its last declarations in both stages, merged. -/
theorem Comparable.getElem?_hints_analysed
    (h : Comparable parse overflow context s report vertex fragment M) (name : String) :
    M.hints[name]? = Option.merge Hint.Fields.merge (hintOfLast parse vertex name)
      (hintOfLast parse fragment name) := by
  obtain ⟨v, f, hv, hf, rfl⟩ := Analysis.outcome_program_eq_ok_iff.mp h.analysed
  rw [← Analysis.getElem?_hints_stage h.vertexMacros hv name,
    ← Analysis.getElem?_hints_stage h.fragmentMacros hf name]
  exact getElem?_mergeHints v.hints f.hints name

/-- Reflection gives a name the last hints that its declarations carry in both stages, merged. -/
theorem Comparable.exists_reflected
    (h : Comparable parse overflow context s report vertex fragment M) :
    ∃ R, ((reflect parse overflow context vertex fragment).run s).value.1 = .ok R ∧
      ∀ name : String, R.hints[name]? = Option.merge Hint.Fields.merge
        (lastHint parse vertex name) (lastHint parse fragment name) := by
  obtain ⟨v, f, hv, hf, rfl⟩ := Analysis.outcome_program_eq_ok_iff.mp h.analysed
  obtain ⟨us, hus⟩ := exists_typed h.uniformTypes
  obtain ⟨as, has⟩ := exists_typed h.attributeTypes
  obtain ⟨R, counted⟩ := exists_counted (report.merged parse vertex fragment us as) h.fits
  have made : (ofReport parse overflow report vertex fragment).value = .ok R :=
    value_ofReport_eq_ok_iff.mpr ⟨us, as, hus, has, counted⟩
  obtain ⟨_, _, -, -, rfl⟩ := counted?_eq_some_iff.mp counted
  have vertexHints := getElem?_hints_said h.vertexListed
    (Analysis.ofTrailing_of_stage h.vertexMacros hv)
  have fragmentHints := getElem?_hints_said h.fragmentListed
    (Analysis.ofTrailing_of_stage h.fragmentMacros hf)
  refine ⟨_, h.accepts.value_reflect.trans made, fun name => ?_⟩
  rw [← vertexHints name, ← fragmentHints name,
    ← hints_vertexStage report parse vertex fragment us as,
    ← hints_stageInterface .fragment fragment (report.said parse fragment)
      (report.said parse vertex) us]
  exact getElem?_mergeHints _ _ name

/-- **The hints of the analysis and of reflection.** Of a program that both can read, the analysis
has the hints of the last declarations and reflection the last hints of the declarations; they are
the same where the last declaration of every name decides in both texts. -/
theorem hints_of_comparable (h : Comparable parse overflow context s report vertex fragment M) :
    ∃ R, ((reflect parse overflow context vertex fragment).run s).value.1 = .ok R ∧
      (∀ name : String, M.hints[name]? = Option.merge Hint.Fields.merge
        (hintOfLast parse vertex name) (hintOfLast parse fragment name)) ∧
      (∀ name : String, R.hints[name]? = Option.merge Hint.Fields.merge
        (lastHint parse vertex name) (lastHint parse fragment name)) ∧
      ((∀ name, LastDecides parse vertex name ∧ LastDecides parse fragment name) →
        R.hints = M.hints) := by
  obtain ⟨R, hR, reflected⟩ := h.exists_reflected
  refine ⟨R, hR, h.getElem?_hints_analysed, reflected, fun decides => ?_⟩
  refine Std.ExtTreeMap.ext_getElem? fun name => ?_
  obtain ⟨dv, df⟩ := decides name
  rw [h.getElem?_hints_analysed, reflected, hintOfLast_eq_lastHint_iff.mpr dv,
    hintOfLast_eq_lastHint_iff.mpr df]

/-- A uniform with a hint that is declared anew without one. -/
def forgetful : String := "uniform float uA; // {min: 0}\nuniform float uA;"

/-- A context that lists the uniform of `forgetful`. -/
def forgetfulScript : Scripted.Script where
  report := { uniforms := [⟨"uA", 0x1406, 1⟩], attributes := [] }

theorem exists_comparable_forgetful :
    ∃ M,
      Comparable Hint.terse .stops (Scripted.context forgetfulScript) [] forgetfulScript.report
        forgetful "" M := by
  have analysed : (Analysis.program Hint.terse {} forgetful "").outcome.toOption.isSome := by
    decide +kernel
  obtain ⟨M, hM⟩ := Option.isSome_iff_exists.mp analysed
  refine ⟨M, ?_⟩
  exact {
    vertexMacros := by decide +kernel
    fragmentMacros := by decide +kernel
    analysed := toOption_eq_some_iff.mp hM
    accepts := Scripted.accepts forgetfulScript.report forgetful "" []
    uniformTypes := by decide +kernel
    attributeTypes := by decide +kernel
    fits := fun _ => by decide +kernel
    vertexListed := by decide +kernel
    fragmentListed := by decide +kernel }

theorem hintOfLast_forgetful :
    (Option.merge Hint.Fields.merge (hintOfLast Hint.terse forgetful "uA")
      (hintOfLast Hint.terse "" "uA")).isSome = false := by decide +kernel

theorem lastHint_forgetful :
    (Option.merge Hint.Fields.merge (lastHint Hint.terse forgetful "uA")
      (lastHint Hint.terse "" "uA")).isSome = true := by decide +kernel

theorem hints_of_comparable_forgetful :
    ∃ M R, Comparable Hint.terse .stops (Scripted.context forgetfulScript) []
        forgetfulScript.report forgetful "" M ∧
      ((reflect Hint.terse .stops (Scripted.context forgetfulScript) forgetful "").run []).value.1 =
        .ok R ∧
      M.hints["uA"]?.isSome = false ∧ R.hints["uA"]?.isSome = true := by
  obtain ⟨M, h⟩ := exists_comparable_forgetful
  obtain ⟨R, hR, analysed, reflected, -⟩ := hints_of_comparable h
  refine ⟨M, R, h, hR, ?_, ?_⟩
  · rw [analysed, hintOfLast_forgetful]
  · rw [reflected, lastHint_forgetful]

/-- The hints of the analysis and of reflection are not the same for every program. -/
theorem not_forall_hints_eq :
    ¬ ∀ (parse : Hint.Parser) (overflow : Overflow) (σ Shader Program : Type)
        (context : Context σ Shader Program) (s : σ) (report : Report) (vertex fragment : String)
        (M : ProgramInterface),
      Comparable parse overflow context s report vertex fragment M →
        ∃ R, ((reflect parse overflow context vertex fragment).run s).value.1 = .ok R ∧
          R.hints = M.hints := by
  intro same
  obtain ⟨M, h⟩ := exists_comparable_forgetful
  obtain ⟨R, hR, eq⟩ := same _ _ _ _ _ _ _ _ _ _ M h
  obtain ⟨R', hR', reflected⟩ := h.exists_reflected
  obtain rfl : R = R' := Except.ok.inj (hR.symm.trans hR')
  have kept := lastHint_forgetful
  rw [← reflected, eq, h.getElem?_hints_analysed, hintOfLast_forgetful] at kept
  exact absurd kept Bool.false_ne_true

end Program

end ShaderInterface
