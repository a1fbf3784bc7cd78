import Mathlib.Algebra.BigOperators.Group.List.Basic
import Mathlib.Algebra.GroupWithZero.Nat
import Mathlib.Data.List.Forall2
import Mathlib.Data.List.Nodup
import ShaderInterface.Proofs.Macro.Rendering
import ShaderInterface.Proofs.Struct.Expansion
import ShaderInterface.Proofs.Struct.Table

/-!
# The entries of an expansion

A variable of base type makes one entry, or one for each element of its array. A variable of struct
type makes one for each `Place`: an array index, a field, and an element of the field. The entries
stand in the order of the places, each place once (`ListsFields`), and are spelled differently.
-/

namespace ShaderInterface

open Glsl Text

namespace Struct

variable {type name : String} {count : Nat} {stage : Stage} {fields : List Field} {f : Field}
  {us : List Uniform}

/-! ## Places -/

/-- A place in a variable of struct type. -/
structure Place where
  /-- The index in the array of the variable. -/
  index : Nat
  /-- The position among the fields. -/
  field : Nat
  /-- The index in the array of the field. -/
  item : Nat
  deriving DecidableEq, Repr

/-- The number of elements of a field, one where it is no array. -/
def Field.size (f : Field) : Nat := max 1 (f.length.getD 0)

/-- The places of a variable, in their order. -/
def places (fields : List Field) (count : Nat) : List Place :=
  (List.range (max 1 count)).flatMap fun index =>
    fields.zipIdx.flatMap fun (f, field) =>
      (List.range f.size).map fun item => { index, field, item }

/-- An index in brackets, where there is an array. -/
def subscript (array : Bool) (index : Nat) : String :=
  if array then "[" ++ toString index ++ "]" else ""

/-- The name of the entry of a field at a place. -/
def Field.spelled (f : Field) (name : String) (count : Nat) (p : Place) : String :=
  name ++ subscript (0 < count) p.index ++ "." ++ f.name ++ subscript f.length.isSome p.item

end Struct

end ShaderInterface
