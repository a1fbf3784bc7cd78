import ShaderInterface.Proofs.Analysis.Redeclaration
import ShaderInterface.Proofs.Interface.Coherence
import ShaderInterface.Proofs.Macro.Resolution

/-!
# The analysis of a program

A program is analysed stage by stage: the strict analysis merges two stages that both have an
interface (`outcome_program_eq_ok_iff`), and the tolerant one records what kept a stage from having
one (`value_tolerantProgram`). A text without macros is read declaration by declaration as it stands
(`exists_reads_of_stage`). The interface of a stage is a run of edits (`edit_editsOf`,
`coherent_stage`).
-/

namespace ShaderInterface.Analysis

open Glsl

variable {parse : Hint.Parser} {config : Config} {which : Stage} {text vertex fragment : String}
  {i : StageInterface}

/-- A stage has an interface only where its macros are resolved. -/
theorem exists_macros_of_stage (h : (stage parse config which text).outcome = .ok i) :
    ∃ macros, (Macro.Table.ofText (Comment.blank text.toList) config.macroPasses).outcome =
      .ok macros := by
  obtain ⟨_, hp, -⟩ := value_run_bind_eq_ok_iff.mp h
  obtain ⟨macros, hm, -⟩ := value_run_bind_eq_ok_iff.mp hp
  exact ⟨macros, hm⟩

/-- The strict analysis gives two stages merged, where both have an interface. -/
theorem outcome_program_eq_ok_iff {p : ProgramInterface} :
    (program parse config vertex fragment).outcome = .ok p ↔
      ∃ v f, (stage parse config .vertex vertex).outcome = .ok v ∧
        (stage parse config .fragment fragment).outcome = .ok f ∧ p = v.merge f := by
  constructor
  · intro h
    obtain ⟨v, hv, h⟩ := value_run_bind_eq_ok_iff.mp h
    obtain ⟨f, hf, h⟩ := value_run_bind_eq_ok_iff.mp h
    cases h
    exact ⟨v, f, hv, hf, rfl⟩
  · rintro ⟨v, f, hv, hf, rfl⟩
    exact value_run_bind_eq_ok_iff.mpr ⟨v, hv, value_run_bind_eq_ok_iff.mpr ⟨f, hf, rfl⟩⟩

/-- The tolerant analysis gives two stages merged, or an empty interface that records which stages
failed. -/
theorem value_tolerantProgram (parse : Hint.Parser) (config : Config) (vertex fragment : String) :
    (tolerantProgram parse config vertex fragment).value =
      match (stage parse config .vertex vertex).outcome,
        (stage parse config .fragment fragment).outcome with
      | .ok v, .ok f => v.merge f
      | v, f => .failed vertex fragment (.ofStages (failureText? v) (failureText? f)) := by
  have vertexValue : (stage parse config .vertex vertex).attempt.value =
      (stage parse config .vertex vertex).outcome := rfl
  have fragmentValue : (stage parse config .fragment fragment).attempt.value =
      (stage parse config .fragment fragment).outcome := rfl
  rw [tolerantProgram, Logged.value_bind, Logged.value_bind, vertexValue, fragmentValue]
  cases (stage parse config .vertex vertex).outcome <;>
    cases (stage parse config .fragment fragment).outcome <;> rfl

/-! ## Texts without macros -/

/-- The uniform declarations in a text that defines no macro. -/
def uniformDeclarations (text : String) : List Declaration :=
  Declaration.scan (Comment.blank text.toList) text.toList .uniform

/-- A text without definitions has no macros. -/
theorem outcome_ofText_of_definitions_eq_nil {s : List Char} (h : Macro.definitions s = [])
    (limit : Nat) : (Macro.Table.ofText s limit).outcome = .ok {} := by
  rw [Macro.Table.outcome_ofText_eq_ok_iff, h]
  exact Macro.Table.value_run_nil limit limit {}

theorem declarations_of_no_macros (config : Config) (text : String) :
    config.declarations {} text .uniform = uniformDeclarations text := by
  have scanned : config.scanned {} text = Comment.blank text.toList := by
    simp [Config.scanned, Macro.Table.substitute, Macro.Table.isEmpty]
  rw [Config.declarations, scanned, uniformDeclarations]

/-- A stage without macros is made of the readings of its declarations. -/
theorem exists_reads_of_stage (noMacros : Macro.definitions (Comment.blank text.toList) = [])
    (h : (stage parse {} which text).outcome = .ok i) :
    ∃ rs as,
      List.Forall₂ (Reads (Config.scope {} parse {} which text)) (uniformDeclarations text) rs ∧
      assemble which text rs as = i := by
  have resolved : (Macro.Table.ofText (Comment.blank text.toList)
      (Config.macroPasses {})).outcome = .ok {} := outcome_ofText_of_definitions_eq_nil noMacros _
  obtain ⟨rs, as, hrs, -, hi⟩ := (outcome_stage_eq_ok_iff resolved).mp h
  rw [declarations_of_no_macros] at hrs
  have expands : (Config.scope {} parse {} which text).expandStructs = true := rfl
  exact ⟨rs, as, hrs.imp fun d r => (outcome_uniformReading_eq_ok_iff expands).mp, hi⟩

/-! ## Coherence -/

/-- The edits by which a declaration is taken in. -/
def editsOf (r : UniformReading) : List Edit :=
  .removeUniform r.name :: r.entries.map .insertUniform ++ (r.hint.map (.withHint r.name)).toList

theorem edit_editsOf (i : StageInterface) (r : UniformReading) :
    i.edit (editsOf r) = declareUniform i r := by
  rw [editsOf, StageInterface.edit, List.foldl_append, List.foldl_cons, List.foldl_map,
    declareUniform]
  cases r.hint <;> rfl

/-- The interface that readings make is coherent, whatever they say. -/
theorem coherent_assemble (which : Stage) (text : String) (rs : List UniformReading)
    (as : List Attribute) : (assemble which text rs as).Coherent := by
  have uniforms : (rs.foldl declareUniform { stage := which, source := text }).Coherent :=
    List.foldlRecOn rs _ (StageInterface.Coherent.ofHints which text ∅) fun i h r _ =>
      edit_editsOf i r ▸ h.edit (editsOf r)
  have attributes := uniforms.edit (as.map .insertAttribute)
  rwa [StageInterface.edit, List.foldl_map] at attributes

/-- **The interface of a stage is coherent.** -/
theorem coherent_stage (h : (stage parse config which text).outcome = .ok i) : i.Coherent := by
  obtain ⟨macros, resolved⟩ := exists_macros_of_stage h
  obtain ⟨rs, as, -, -, rfl⟩ := (outcome_stage_eq_ok_iff resolved).mp h
  exact coherent_assemble which text rs as

end ShaderInterface.Analysis
