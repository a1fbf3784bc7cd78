import ShaderInterface.Hint.Reader
import ShaderInterface.Proofs.Error
import ShaderInterface.Proofs.Reflection.Calls

/-!
# Failures of reflection over GL

What GL answers decides what reflection records as failed (`Script.failures`, `failures_reflect`):
each stage that does not compile, and linking where both stages compile. A failure that is recorded
has a text, whatever the info log of GL is (`failureText_ne_empty`), and shows in the summary
(`Failures.summary_eq_empty_iff`); with it an interface holds nothing but the texts of the stages
(`failures_visible`).
-/

namespace ShaderInterface

/-! ## Summaries -/

theorem intercalate_eq_empty_iff {separator : String} {parts : List String}
    (h : ∀ part ∈ parts, part ≠ "") : separator.intercalate parts = "" ↔ parts = [] := by
  constructor
  · intro empty
    cases parts with
    | nil => rfl
    | cons part parts =>
      have first := h part List.mem_cons_self
      cases parts with
      | nil =>
        rw [String.intercalate_singleton] at empty
        exact absurd empty first
      | cons next parts =>
        rw [String.intercalate_cons_cons] at empty
        exact absurd empty (append_ne_empty_of_left (append_ne_empty_of_left first _) _)
  · rintro rfl
    exact String.intercalate_nil

namespace Failures

/-- The line of the summary for a failure, if it has a text. -/
def summaryLine (label : String) (failure : Option String) : Option String :=
  (failure.filter fun text => !text.isEmpty).map fun text => label ++ ": " ++ text

theorem summaryLine_eq_none_iff {label : String} {failure : Option String} :
    summaryLine label failure = none ↔ failure.getD "" = "" := by
  cases failure <;> simp [summaryLine]

theorem ne_empty_of_summaryLine {label line : String} {failure : Option String}
    (h : summaryLine label failure = some line) : line ≠ "" := by
  obtain ⟨text, -, rfl⟩ := Option.map_eq_some_iff.mp h
  exact append_ne_empty_of_left (append_ne_empty_of_right (by decide) _) _

/-- **The summary is empty when no failure has a text.** -/
theorem summary_eq_empty_iff (f : Failures) :
    f.summary = "" ↔ f.vertex.getD "" = "" ∧ f.fragment.getD "" = "" ∧ f.link.getD "" = "" := by
  have lines : f.summary = "\n".intercalate ([summaryLine "vertex" f.vertex,
    summaryLine "fragment" f.fragment, summaryLine "link" f.link].filterMap id) := rfl
  rw [lines, intercalate_eq_empty_iff, List.filterMap_eq_nil_iff]
  · simp only [List.forall_mem_cons, id_eq, summaryLine_eq_none_iff, List.not_mem_nil,
      false_implies, implies_true, and_true]
  · intro line hl
    obtain ⟨_, hf, rfl⟩ := List.mem_filterMap.mp hl
    simp only [List.mem_cons, List.not_mem_nil, or_false] at hf
    rcases hf with h | h | h <;> exact ne_empty_of_summaryLine h.symm

end Failures

/-- The interface keeps the texts of the stages and holds nothing else. -/
structure ProgramInterface.Bare (p : ProgramInterface) (vertex fragment : String) : Prop where
  vertexSource : p.vertexSource = vertex
  fragmentSource : p.fragmentSource = fragment
  uniforms : p.uniforms = {}
  attributes : p.attributes = {}
  hints : p.hints = ∅
  uniformSlots : p.uniformSlots = 0
  attributeSlots : p.attributeSlots = 0

theorem ProgramInterface.bare_failed (vertex fragment : String) (failures : Failures) :
    (ProgramInterface.failed vertex fragment failures).Bare vertex fragment :=
  ⟨rfl, rfl, rfl, rfl, rfl, rfl, rfl⟩

namespace Reflection.Gl

variable {parse : Hint.Parser} {overflow : Overflow} {script : Script}
  {vertex fragment : String} {st : State} {p : ProgramInterface}

/-! ## What fails -/

/-- The text of a failure is not empty, whatever the info log is. -/
theorem failureText_ne_empty (log what : String) : failureText log what ≠ "" := by
  unfold failureText
  dsimp only
  split
  · exact append_ne_empty_of_right (by decide) _
  · next h => simpa using h

/-- What fails where GL answers as the script says: each stage that does not compile, and linking
where both compile. -/
def Script.failures (script : Script) : Failures where
  vertex := script.vertex.failure? "Compilation"
  fragment := script.fragment.failure? "Compilation"
  link := if script.vertex.succeeded ∧ script.fragment.succeeded then script.link.failure? "Link"
    else none

/-- A report fails with all that fails; where there is a report, nothing does. -/
theorem failures_of_outcome (script : Script) :
    match script.outcome with
    | .ok _ => script.failures = {}
    | .error failures => script.failures = failures := by
  unfold Script.outcome Script.failures Status.failure?
  by_cases hv : script.vertex.succeeded <;> by_cases hf : script.fragment.succeeded <;>
    by_cases hl : script.link.succeeded <;> simp [hv, hf, hl]

/-- **What reflection records** is what fails, and with a failure the interface holds nothing. -/
theorem failures_reflect
    (h : ((reflect parse overflow (context script) vertex fragment).run st).value.1 = .ok p) :
    p.failures = script.failures ∧ (p.hasError = true → p.Bare vertex fragment) := by
  obtain ⟨m, made⟩ := makes_report script vertex fragment st.created
  have recorded := failures_of_outcome script
  rw [value_reflect, made st rfl] at h
  cases hr : script.outcome with
  | ok report =>
    rw [hr] at h recorded
    have none := failures_ofReport h
    refine ⟨none.trans recorded.symm, fun error => ?_⟩
    rw [ProgramInterface.hasError, none] at error
    cases error
  | error failures =>
    rw [hr] at h recorded
    cases h
    exact ⟨recorded.symm, fun _ => ProgramInterface.bare_failed vertex fragment failures⟩

/-! ## Failures have texts -/

theorem Status.succeeded_iff {status : Status} : status.succeeded = true ↔ status.status = 1 :=
  decide_eq_true_iff

theorem Status.isSome_failure?_iff (status : Status) (what : String) :
    (status.failure? what).isSome ↔ status.status ≠ 1 := by
  rw [ne_eq, failure?, ← succeeded_iff]
  split <;> simp [*]

theorem Script.isSome_failures_link_iff (script : Script) :
    script.failures.link.isSome ↔
      script.vertex.status = 1 ∧ script.fragment.status = 1 ∧ script.link.status ≠ 1 := by
  rw [← Status.succeeded_iff, ← Status.succeeded_iff, ← and_assoc, ← Status.isSome_failure?_iff _
    "Link", Script.failures]
  dsimp only
  split <;> simp [*]

/-- A failure is recorded exactly where a text is. -/
theorem Status.getD_failure?_ne_empty_iff (status : Status) (what : String) :
    (status.failure? what).getD "" ≠ "" ↔ (status.failure? what).isSome := by
  unfold failure?
  split <;> simp [failureText_ne_empty]

theorem Script.getD_failures_link_ne_empty_iff (script : Script) :
    script.failures.link.getD "" ≠ "" ↔ script.failures.link.isSome := by
  unfold Script.failures
  dsimp only
  split
  · exact Status.getD_failure?_ne_empty_iff _ _
  · simp

/-- Something has failed when the summary says so. -/
theorem Script.summary_failures_eq_empty_iff (script : Script) :
    script.failures.summary = "" ↔ script.failures.any = false := by
  have vertex := script.vertex.getD_failure?_ne_empty_iff "Compilation"
  have fragment := script.fragment.getD_failure?_ne_empty_iff "Compilation"
  have link := script.getD_failures_link_ne_empty_iff
  rw [Failures.summary_eq_empty_iff, Failures.any, Bool.or_eq_false_iff, Bool.or_eq_false_iff,
    and_assoc]
  rw [← not_iff_not, not_not, Bool.not_eq_true] at vertex fragment link
  exact and_congr vertex (and_congr fragment link)

/-- **Failures are complete and show.** An interface that reflection gives over GL has an error
exactly when a stage does not compile, or both compile and do not link. Each failure has a text that
is not empty, whatever the info log is, and the summary is empty exactly when there is no error.
With an error the interface keeps the texts of the stages and holds nothing else. -/
theorem failures_visible
    (h : ((reflect parse overflow (context script) vertex fragment).run st).value.1 = .ok p) :
    (p.hasError = true ↔ script.vertex.status ≠ 1 ∨ script.fragment.status ≠ 1 ∨
      script.vertex.status = 1 ∧ script.fragment.status = 1 ∧ script.link.status ≠ 1) ∧
    (p.failures.vertex.getD "" ≠ "" ↔ script.vertex.status ≠ 1) ∧
    (p.failures.fragment.getD "" ≠ "" ↔ script.fragment.status ≠ 1) ∧
    (p.failures.link.getD "" ≠ "" ↔
      script.vertex.status = 1 ∧ script.fragment.status = 1 ∧ script.link.status ≠ 1) ∧
    (p.failures.summary = "" ↔ p.hasError = false) ∧
    (p.hasError = true → p.Bare vertex fragment) := by
  obtain ⟨recorded, bare⟩ := failures_reflect h
  have vertexFails := script.vertex.isSome_failure?_iff "Compilation"
  have fragmentFails := script.fragment.isSome_failure?_iff "Compilation"
  have linkFails := script.isSome_failures_link_iff
  have error : p.hasError = script.failures.any := recorded ▸ rfl
  rw [error, recorded]
  refine ⟨?_, ?_, ?_, ?_, script.summary_failures_eq_empty_iff, error ▸ bare⟩
  · rw [Failures.any, Bool.or_eq_true, Bool.or_eq_true, or_assoc]
    exact or_congr vertexFails (or_congr fragmentFails linkFails)
  · exact (script.vertex.getD_failure?_ne_empty_iff _).trans vertexFails
  · exact (script.fragment.getD_failure?_ne_empty_iff _).trans fragmentFails
  · exact script.getD_failures_link_ne_empty_iff.trans linkFails

/-- Only the fragment stage does not compile, and its info log is blank. -/
def blankLog : Script where
  vertex := ⟨1, ""⟩
  fragment := ⟨7, " \n "⟩
  link := ⟨1, ""⟩
  uniforms := []
  attributes := []

theorem failures_visible_blankLog :
    ∃ p, ((reflect Hint.terse .stops (context blankLog) "void main() { }" "oops").run
        {}).value.1 = .ok p ∧
      p.hasError = true ∧ p.failures.vertex.getD "" = "" ∧ p.failures.fragment.getD "" ≠ "" ∧
      p.failures.link.getD "" = "" ∧ p.failures.summary ≠ "" ∧ p.Bare "void main() { }" "oops" := by
  have h : ((reflect Hint.terse .stops (context blankLog) "void main() { }" "oops").run
      {}).value.1 = .ok (.failed "void main() { }" "oops"
        { fragment := some "Compilation failed without an info log" }) := rfl
  obtain ⟨error, vertex, fragment, link, summary, bare⟩ := failures_visible h
  have failed := error.mpr (.inr (.inl (by decide)))
  refine ⟨_, h, failed, ?_, fragment.mpr (by decide), ?_, ?_, bare failed⟩
  · exact not_not.mp (vertex.not.mpr (by decide))
  · exact not_not.mp (link.not.mpr (by decide))
  · rw [ne_eq, summary, failed]
    decide

end Reflection.Gl

end ShaderInterface
