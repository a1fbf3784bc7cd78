import ShaderInterface.Hint
import ShaderInterface.Interface.Roster
import ShaderInterface.Interface.Variable

/-!
# The interface of a stage

The uniforms and attributes that one stage declares, in the order of their declarations, and the
hints of the declared variables. A redeclaration replaces an earlier one completely:
`removeUniform` takes out every entry that stands for a variable, whatever its shape.
-/

namespace ShaderInterface

open Glsl Text

/-- The interface of one stage. -/
structure StageInterface where
  stage : Stage
  /-- The text of the stage. -/
  source : String
  uniforms : Roster Uniform := {}
  attributes : Roster Attribute := {}
  /-- The hints by the declared name. -/
  hints : NameMap Hint.Fields := ∅

/-- The entry stands for the declared variable: it has its name, or its name followed by an index
or by a field. -/
def standsFor (entry declared : String) : Bool :=
  (afterPrefix? declared.toList entry.toList).any fun rest =>
    rest.head?.all fun c => c == '[' || c == '.'

namespace StageInterface

/-- The interface with a uniform entry. -/
def insertUniform (i : StageInterface) (u : Uniform) : StageInterface :=
  { i with uniforms := i.uniforms.insert u.name u }

/-- The interface with an attribute entry. -/
def insertAttribute (i : StageInterface) (a : Attribute) : StageInterface :=
  { i with attributes := i.attributes.insert a.name a }

/-- The interface with a hint for a declared name. -/
def withHint (i : StageInterface) (name : String) (fields : Hint.Fields) : StageInterface :=
  { i with hints := i.hints.insert name fields }

/-- The interface without the entries and the hint of a declared variable. -/
def removeUniform (i : StageInterface) (declared : String) : StageInterface :=
  { i with
    uniforms := i.uniforms.filter fun name => !standsFor name declared
    hints := i.hints.erase declared }

/-- The interface has no uniform and no attribute. -/
def isEmpty (i : StageInterface) : Bool := i.uniforms.isEmpty && i.attributes.isEmpty

/-- Both rosters are coherent, and every entry stands under its own name. -/
structure Coherent (i : StageInterface) : Prop where
  uniforms : i.uniforms.Coherent
  attributes : i.attributes.Coherent
  uniform_name : ∀ name u, i.uniforms.get? name = some u → u.name = name
  attribute_name : ∀ name a, i.attributes.get? name = some a → a.name = name

end StageInterface

end ShaderInterface
