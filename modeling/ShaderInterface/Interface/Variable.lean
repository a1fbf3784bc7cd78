import ShaderInterface.Glsl.BaseType
import ShaderInterface.Glsl.Stage

/-!
# Uniforms and attributes

The entries of a shader interface. A uniform entry stands for a plain variable, for one element of
an array, or for one field of a struct variable; its name is the qualified name of what it stands
for.
-/

namespace ShaderInterface

open Glsl

/-- What a uniform entry stands for. -/
inductive Kind where
  /-- A variable that is neither an array nor a struct. -/
  | plain
  /-- An element of an array. -/
  | element
  /-- A field of a variable of struct type. -/
  | field (structType owner : String)
  deriving DecidableEq, Repr

/-- A uniform entry. -/
structure Uniform where
  /-- The qualified name, `uLight[2].color` for example. -/
  name : String
  type : BaseType
  /-- The length of the array, zero where there is none. -/
  count : Nat := 0
  /-- The place in the array, zero where there is none. -/
  index : Nat := 0
  kind : Kind := .plain
  /-- The stages that declare the uniform. -/
  stages : StageSet
  deriving DecidableEq, Repr

/-- An attribute entry. -/
structure Attribute where
  name : String
  type : BaseType
  /-- The length of the array, zero where there is none. -/
  count : Nat := 0
  /-- The stages that declare the attribute. -/
  stages : StageSet
  deriving DecidableEq, Repr

/-- The name of an array element. -/
def elementName (array : String) (index : Nat) : String := array ++ "[" ++ toString index ++ "]"

namespace Uniform

/-- The entry of a plain variable. -/
def plain (name : String) (type : BaseType) (stage : Stage) : Uniform :=
  { name, type, stages := .single stage }

/-- The entry of an array element. -/
def element (array : String) (type : BaseType) (index count : Nat) (stage : Stage) : Uniform :=
  { name := elementName array index, type, count, index, kind := .element,
    stages := .single stage }

/-- The name of the declared type: the struct type for a field, else the base type. -/
def typeName (u : Uniform) : String :=
  match u.kind with
  | .field structType _ => structType
  | _ => u.type.name

/-- The entry stands in an array. -/
def isArray (u : Uniform) : Bool := u.count > 0

/-- The entry `v`, declared in the stages of both. -/
def merge (u v : Uniform) : Uniform := { v with stages := u.stages ∪ v.stages }

end Uniform

namespace Attribute

/-- The entry `b`, declared in the stages of both. -/
def merge (a b : Attribute) : Attribute := { b with stages := a.stages ∪ b.stages }

end Attribute

end ShaderInterface
