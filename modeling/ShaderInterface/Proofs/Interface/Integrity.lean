import ShaderInterface.Hint.Reader
import ShaderInterface.Proofs.Analysis.Program
import ShaderInterface.Proofs.Reflection.Report
import ShaderInterface.Reflection.Scripted

/-!
# Integrity of every interface

However an interface comes about, its maps and its orders name the same variables: after any run
of edits, after merging, and at the end of the analysis and of the reflection of a program
(`interfaces_coherent`).
-/

namespace ShaderInterface

open Glsl

variable {parse : Hint.Parser} {config : Analysis.Config} {vertex fragment : String}
  {p : ProgramInterface}

theorem Analysis.coherent_program
    (h : (Analysis.program parse config vertex fragment).outcome = .ok p) : p.Coherent := by
  obtain ⟨v, f, hv, hf, rfl⟩ := outcome_program_eq_ok_iff.mp h
  exact (coherent_stage hv).merge (coherent_stage hf)

theorem Analysis.coherent_tolerantProgram (parse : Hint.Parser) (config : Analysis.Config)
    (vertex fragment : String) :
    (Analysis.tolerantProgram parse config vertex fragment).value.Coherent := by
  rw [value_tolerantProgram]
  split
  · next v f hv hf => exact (coherent_stage hv).merge (coherent_stage hf)
  · exact .failed vertex fragment _

namespace Reflection

/-- The interface of a reflected stage is coherent: its uniforms come in one by one. -/
theorem coherent_stageInterface (stage : Stage) (text : String) (said other : Declared)
    (uniforms : List (ActiveVariable × BaseType)) :
    (stageInterface stage text said other uniforms).Coherent := by
  have edited := (StageInterface.Coherent.ofHints stage text said.hints).edit
    ((uniforms.filter fun u => inStage said other u.1).map fun u =>
      .insertUniform (uniformEntry u.1 u.2 stage))
  rwa [StageInterface.edit, List.foldl_map] at edited

theorem coherent_vertexStage (report : Report) (parse : Hint.Parser) (vertex fragment : String)
    (us as : List (ActiveVariable × BaseType)) :
    (report.vertexStage parse vertex fragment us as).Coherent := by
  have uniforms := coherent_stageInterface .vertex vertex (report.said parse vertex)
    (report.said parse fragment) us
  have edited := uniforms.edit
    (as.map fun a => .insertAttribute (attributeEntry a.1 a.2))
  rwa [StageInterface.edit, List.foldl_map] at edited

theorem coherent_ofReport {overflow : Overflow} {report : Report}
    (h : (ofReport parse overflow report vertex fragment).value = .ok p) : p.Coherent := by
  obtain ⟨us, as, -, -, counted⟩ := value_ofReport_eq_ok_iff.mp h
  obtain ⟨_, _, -, -, rfl⟩ := counted?_eq_some_iff.mp counted
  have merged := (coherent_vertexStage report parse vertex fragment us as).merge
    (coherent_stageInterface .fragment fragment (report.said parse fragment)
      (report.said parse vertex) us)
  -- the slots are no part of what coherence speaks of
  exact ⟨merged.uniforms, merged.attributes, merged.uniform_name, merged.attribute_name⟩

theorem coherent_reflect {overflow : Overflow} {σ Shader Program : Type}
    {context : Context σ Shader Program} {s : σ}
    (h : ((reflect parse overflow context vertex fragment).run s).value.1 = .ok p) :
    p.Coherent := by
  rw [value_reflect] at h
  split at h
  · exact coherent_ofReport h
  · cases h
    exact .failed vertex fragment _

end Reflection

/-- **Every interface is coherent and lists each of its entries once**: a stage after any run of
edits, two such stages merged, what the analysis gives for any texts, strictly or tolerantly, and
what reflection gives over any context. -/
theorem interfaces_coherent :
    (∀ (which : Stage) (text : String) (edits : List Edit),
      (StageInterface.edit { stage := which, source := text } edits).Coherent) ∧
    (∀ (which which' : Stage) (text text' : String) (edits edits' : List Edit),
      let p := (StageInterface.edit { stage := which, source := text } edits).merge
        (StageInterface.edit { stage := which', source := text' } edits')
      p.Coherent ∧ p.ListsOnce) ∧
    (∀ (parse : Hint.Parser) (config : Analysis.Config) (vertex fragment : String) (p),
      (Analysis.program parse config vertex fragment).outcome = .ok p →
        p.Coherent ∧ p.ListsOnce) ∧
    (∀ (parse : Hint.Parser) (config : Analysis.Config) (vertex fragment : String),
      let p := (Analysis.tolerantProgram parse config vertex fragment).value
      p.Coherent ∧ p.ListsOnce) ∧
    (∀ (parse : Hint.Parser) (overflow : Reflection.Overflow) (σ Shader Program : Type)
      (context : Reflection.Context σ Shader Program) (s : σ) (vertex fragment : String) (p),
      ((Reflection.reflect parse overflow context vertex fragment).run s).value.1 = .ok p →
        p.Coherent ∧ p.ListsOnce) := by
  have edited : ∀ (which : Stage) (text : String) (edits : List Edit),
      (StageInterface.edit { stage := which, source := text } edits).Coherent :=
    fun which text edits => (StageInterface.Coherent.ofHints which text ∅).edit edits
  refine ⟨edited, ?_, ?_, ?_, ?_⟩
  · intro which which' text text' edits edits'
    have merged := (edited which text edits).merge (edited which' text' edits')
    exact ⟨merged, merged.listsOnce⟩
  · intro parse config vertex fragment p h
    have coherent := Analysis.coherent_program h
    exact ⟨coherent, coherent.listsOnce⟩
  · intro parse config vertex fragment
    have coherent := Analysis.coherent_tolerantProgram parse config vertex fragment
    exact ⟨coherent, coherent.listsOnce⟩
  · intro parse overflow σ Shader Program context s vertex fragment p h
    have coherent := Reflection.coherent_reflect h
    exact ⟨coherent, coherent.listsOnce⟩

/-- An array that is declared anew as a struct, an attribute, and a uniform of both stages. -/
def sharedVertex : String :=
  "uniform int a[3];\nstruct S { float x, y; };\nuniform S a;\nattribute vec3 p;\nuniform vec2 b;"

/-- A text that declares one uniform of `sharedVertex` and another one. -/
def sharedFragment : String := "uniform vec4 c;\nuniform vec2 b;"

/-- A context that lists the variables of the two texts. -/
def sharedScript : Reflection.Scripted.Script where
  report :=
    { uniforms := [⟨"b", 0x8B50, 1⟩, ⟨"a.y", 0x1406, 1⟩, ⟨"c", 0x8B52, 1⟩, ⟨"b", 0x8B50, 1⟩]
      attributes := [⟨"p", 0x8B51, 1⟩] }

theorem interfaces_coherent_shared :
    ∃ p q, (Analysis.program Hint.terse {} sharedVertex sharedFragment).outcome = .ok p ∧
      ((Reflection.reflect Hint.terse .stops (Reflection.Scripted.context sharedScript)
        sharedVertex sharedFragment).run []).value.1 = .ok q ∧
      p.uniforms.order = ["a.x", "a.y", "b", "c"] ∧ q.uniforms.order = ["b", "a.y", "c"] ∧
      (p.Coherent ∧ p.ListsOnce) ∧ (q.Coherent ∧ q.ListsOnce) := by
  have analysed : (Analysis.program Hint.terse {} sharedVertex sharedFragment).outcome.toOption.map
      (·.uniforms.order) = some ["a.x", "a.y", "b", "c"] := by decide +kernel
  have reflected : ((Reflection.reflect Hint.terse .stops
      (Reflection.Scripted.context sharedScript) sharedVertex sharedFragment).run
        []).value.1.toOption.map (·.uniforms.order) =
          some ["b", "a.y", "c"] := by decide +kernel
  obtain ⟨p, hp, orderP⟩ := Option.map_eq_some_iff.mp analysed
  obtain ⟨q, hq, orderQ⟩ := Option.map_eq_some_iff.mp reflected
  have hp := toOption_eq_some_iff.mp hp
  have hq := toOption_eq_some_iff.mp hq
  obtain ⟨-, -, program, -, reflect⟩ := interfaces_coherent
  exact ⟨p, q, hp, hq, orderP, orderQ, program _ {} _ _ p hp, reflect _ _ _ _ _ _ _ _ _ q hq⟩

end ShaderInterface
