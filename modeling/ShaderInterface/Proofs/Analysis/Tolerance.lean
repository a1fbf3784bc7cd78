import ShaderInterface.Proofs.Analysis.Program
import ShaderInterface.Proofs.Error

/-!
# The tolerant analysis and the strict one

Both analyses read the same two stages. Where both stages can be read they give the same interface.
Where a stage fails the tolerant analysis gives nothing of an interface: it records the text of the
error of each stage that fails, while the strict one fails as the vertex stage, or, where that stage
can be read, as the fragment stage (`tolerantProgram_agrees`).
-/

namespace ShaderInterface

namespace Analysis

variable {parse : Hint.Parser} {config : Config} {vertex fragment : String}

/-- What is recorded of a stage: the text of its error where it fails, nothing where it can be
read. -/
def Records : Except Error StageInterface → Option String → Prop
  | .ok _, recorded => recorded = none
  | .error e, recorded => recorded = some e.message ∧ e.message ≠ ""

/-- The interface of a program that cannot be read: the sources, what is recorded of each stage,
and nothing else. -/
structure Refused (parse : Hint.Parser) (config : Config) (vertex fragment : String)
    (p : ProgramInterface) : Prop where
  hasError : p.hasError = true
  vertexSource : p.vertexSource = vertex
  fragmentSource : p.fragmentSource = fragment
  uniforms : p.uniforms = {}
  attributes : p.attributes = {}
  hints : p.hints = ∅
  uniformSlots : p.uniformSlots = 0
  attributeSlots : p.attributeSlots = 0
  vertexFailure : Records (stage parse config .vertex vertex).outcome p.failures.vertex
  fragmentFailure : Records (stage parse config .fragment fragment).outcome p.failures.fragment
  linkFailure : p.failures.link = none

theorem records_failureText? (outcome : Except Error StageInterface) :
    Records outcome (failureText? outcome) := by
  cases outcome with
  | ok i => exact rfl
  | error e => exact ⟨rfl, e.message_ne_empty⟩

/-- The strict analysis fails as the first stage that fails. -/
theorem outcome_program_eq_error_iff {e : Error} :
    (program parse config vertex fragment).outcome = .error e ↔
      (stage parse config .vertex vertex).outcome = .error e ∨
        (∃ v, (stage parse config .vertex vertex).outcome = .ok v) ∧
          (stage parse config .fragment fragment).outcome = .error e := by
  have merging : ∀ v : StageInterface,
      (do let f ← stage parse config .fragment fragment; return v.merge f : Diagnosed _).outcome =
        .error e ↔ (stage parse config .fragment fragment).outcome = .error e := by
    intro v
    refine value_run_bind_eq_error_iff.trans (or_iff_left ?_)
    rintro ⟨f, -, h⟩
    cases h
  refine value_run_bind_eq_error_iff.trans (or_congr Iff.rfl ⟨?_, ?_⟩)
  · rintro ⟨v, hv, h⟩
    exact ⟨⟨v, hv⟩, (merging v).mp h⟩
  · rintro ⟨⟨v, hv⟩, h⟩
    exact ⟨v, hv, (merging v).mpr h⟩

/-- An interface that is made of two stages records no failure. -/
theorem hasError_merge (v f : StageInterface) : (v.merge f).hasError = false := rfl

/-- An interface that is given the failure of a stage records one. -/
theorem hasError_failed (vertex fragment : String) {v f : Option String}
    (h : v ≠ none ∨ f ≠ none) :
    (ProgramInterface.failed vertex fragment (.ofStages v f)).hasError = true := by
  rw [← Option.isSome_iff_ne_none, ← Option.isSome_iff_ne_none, ← Bool.or_eq_true] at h
  exact (Failures.any_ofStages v f).trans h

theorem value_tolerantProgram_of_ok {p : ProgramInterface}
    (h : (program parse config vertex fragment).outcome = .ok p) :
    (tolerantProgram parse config vertex fragment).value = p ∧ p.hasError = false := by
  obtain ⟨v, f, hv, hf, rfl⟩ := outcome_program_eq_ok_iff.mp h
  rw [value_tolerantProgram, hv, hf]
  exact ⟨rfl, hasError_merge v f⟩

/-- A program of which a stage fails is refused. -/
theorem refused_of_error {e : Error}
    (h : (program parse config vertex fragment).outcome = .error e) :
    Refused parse config vertex fragment (tolerantProgram parse config vertex fragment).value := by
  have vertexFailure := records_failureText? (stage parse config .vertex vertex).outcome
  have fragmentFailure := records_failureText? (stage parse config .fragment fragment).outcome
  have refused : (tolerantProgram parse config vertex fragment).value =
      .failed vertex fragment
        (.ofStages (failureText? (stage parse config .vertex vertex).outcome)
          (failureText? (stage parse config .fragment fragment).outcome)) ∧
      (failureText? (stage parse config .vertex vertex).outcome ≠ none ∨
        failureText? (stage parse config .fragment fragment).outcome ≠ none) := by
    rw [value_tolerantProgram]
    rcases outcome_program_eq_error_iff.mp h with hv | ⟨⟨v, hv⟩, hf⟩
    · rw [hv]
      exact ⟨rfl, .inl (Option.some_ne_none _)⟩
    · rw [hv, hf]
      exact ⟨rfl, .inr (Option.some_ne_none _)⟩
  obtain ⟨value, failed⟩ := refused
  have error := hasError_failed vertex fragment failed
  rw [Failures.ofStages_eq] at value error
  rw [value]
  exact { hasError := error
          vertexSource := rfl
          fragmentSource := rfl
          uniforms := rfl
          attributes := rfl
          hints := rfl
          uniformSlots := rfl
          attributeSlots := rfl
          vertexFailure
          fragmentFailure
          linkFailure := rfl }

/-- **The strict and the tolerant analysis agree.** The strict one gives an interface exactly when
the tolerant one records no failure, and then both give the same. Otherwise the tolerant one gives
the sources and the texts of the errors and nothing of an interface, and the strict one fails as the
first stage that fails. -/
theorem tolerantProgram_agrees (parse : Hint.Parser) (config : Config) (vertex fragment : String) :
    (∀ p, (program parse config vertex fragment).outcome = .ok p ↔
      (tolerantProgram parse config vertex fragment).value.hasError = false ∧
        (tolerantProgram parse config vertex fragment).value = p) ∧
    ((tolerantProgram parse config vertex fragment).value.hasError = false ∨
      Refused parse config vertex fragment (tolerantProgram parse config vertex fragment).value ∧
        ∃ e, (program parse config vertex fragment).outcome = .error e ∧
          ((stage parse config .vertex vertex).outcome = .error e ∨
            (∃ v, (stage parse config .vertex vertex).outcome = .ok v) ∧
              (stage parse config .fragment fragment).outcome = .error e)) := by
  cases strict : (program parse config vertex fragment).outcome with
  | ok p =>
    obtain ⟨same, clean⟩ := value_tolerantProgram_of_ok strict
    rw [same, clean]
    exact ⟨fun q => by simp, .inl rfl⟩
  | error e =>
    have refused := refused_of_error strict
    refine ⟨fun p => ⟨fun h => ?_, fun h => ?_⟩, .inr ⟨refused, e, rfl, ?_⟩⟩
    · cases h
    · rw [refused.hasError] at h
      cases h.1
    · exact outcome_program_eq_error_iff.mp strict

end Analysis

end ShaderInterface
