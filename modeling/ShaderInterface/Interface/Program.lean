import ShaderInterface.Hint.Merge
import ShaderInterface.Interface.Stage

/-!
# The interface of a program

The interfaces of two stages merged into one. A variable that both stages declare has one entry,
the one of the fragment stage, declared in both; its hints are merged. Where a program cannot
be read, what failed is recorded and the interface is empty.
-/

namespace ShaderInterface

open Glsl

/-- What failed, with the text of the failure. -/
structure Failures where
  vertex : Option String := none
  fragment : Option String := none
  link : Option String := none
  deriving DecidableEq, Repr

namespace Failures

/-- The failures with a further one of a stage. -/
def withStage (f : Failures) (stage : Stage) (text : String) : Failures :=
  match stage with
  | .vertex => { f with vertex := some text }
  | .fragment => { f with fragment := some text }

/-- The failures with a failure of linking. -/
def withLink (f : Failures) (text : String) : Failures := { f with link := some text }

/-- The failures with that of a stage, if the stage failed. -/
def record (f : Failures) (stage : Stage) : Option String → Failures
  | some text => f.withStage stage text
  | none => f

/-- The failures of two stages. -/
def ofStages (vertex fragment : Option String) : Failures :=
  (record {} .vertex vertex).record .fragment fragment

/-- Something failed. -/
def any (f : Failures) : Bool := f.vertex.isSome || f.fragment.isSome || f.link.isSome

/-- A line for each failure with a text that is not empty. -/
def summary (f : Failures) : String :=
  let line (label : String) (text : Option String) : Option String :=
    (text.filter fun text => !text.isEmpty).map fun text => label ++ ": " ++ text
  "\n".intercalate
    ([line "vertex" f.vertex, line "fragment" f.fragment, line "link" f.link].filterMap id)

/-- With a text for a stage something failed, and the other texts are as they were. -/
theorem withStage_eq (f : Failures) (stage : Stage) (text : String) :
    (f.withStage stage text).any ∧ f.withStage stage text =
      { vertex := if stage = .vertex then some text else f.vertex
        fragment := if stage = .fragment then some text else f.fragment
        link := f.link } := by
  cases stage <;> simp [withStage, any]

theorem any_withLink (f : Failures) (text : String) : (f.withLink text).any := by
  simp [withLink, any]

theorem ofStages_eq (vertex fragment : Option String) :
    ofStages vertex fragment = { vertex, fragment } := by
  cases vertex <;> cases fragment <;> rfl

theorem any_ofStages (vertex fragment : Option String) :
    (ofStages vertex fragment).any = (vertex.isSome || fragment.isSome) := by
  rw [ofStages_eq, any, Option.isSome_none, Bool.or_false]

end Failures

/-- The interface of a vertex and a fragment stage that work together. -/
structure ProgramInterface where
  vertexSource : String
  fragmentSource : String
  uniforms : Roster Uniform := {}
  attributes : Roster Attribute := {}
  /-- The hints by the declared name. -/
  hints : NameMap Hint.Fields := ∅
  /-- The number of slots that the uniforms take. -/
  uniformSlots : Nat := 0
  /-- The number of slots that the attributes take. -/
  attributeSlots : Nat := 0
  failures : Failures := {}

namespace ProgramInterface

/-- The empty interface of a program that failed. -/
def failed (vertexSource fragmentSource : String) (failures : Failures) : ProgramInterface :=
  { vertexSource, fragmentSource, failures }

/-- Something failed. -/
def hasError (p : ProgramInterface) : Bool := p.failures.any

/-- The uniform entry of a name. -/
def uniform? (p : ProgramInterface) (name : String) : Option Uniform := p.uniforms.get? name

/-- The attribute entry of a name. -/
def attribute? (p : ProgramInterface) (name : String) : Option Attribute := p.attributes.get? name

/-- The hint of a declared name. -/
def hint? (p : ProgramInterface) (name : String) : Option Hint.Fields :=
  p.hints[name]?

end ProgramInterface

/-- The hints of two stages; those of one name are merged. -/
def mergeHints (a b : NameMap Hint.Fields) : NameMap Hint.Fields :=
  b.foldl
    (fun merged name fields =>
      merged.insert name (match merged[name]? with
        | some base => Hint.Fields.merge base fields
        | none => fields))
    a

/-- The interface of the program that two stages make. Every entry takes one slot. -/
def StageInterface.merge (vertex fragment : StageInterface) : ProgramInterface :=
  let uniforms := vertex.uniforms.merge Uniform.merge fragment.uniforms
  let attributes := vertex.attributes.merge Attribute.merge fragment.attributes
  { vertexSource := vertex.source
    fragmentSource := fragment.source
    uniforms
    attributes
    hints := mergeHints vertex.hints fragment.hints
    uniformSlots := uniforms.size
    attributeSlots := attributes.size }

end ShaderInterface
