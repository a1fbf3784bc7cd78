import ShaderInterface.Glsl.BaseType

/-!
# Initial values

The value with which a uniform of a base type is registered: zero for scalars and vectors, the
identity for matrices, column by column, and texture unit zero for samplers.
-/

namespace ShaderInterface.Glsl

/-- The components of a value of a base type. -/
inductive Value where
  | bools (components : List Bool)
  | ints (components : List Int)
  | uints (components : List Nat)
  | floats (components : List Float32)
  | textureUnit (unit : Int)

/-- The components of a scalar or vector value that are all zero. -/
def Value.zero (n : Nat) : Scalar → Value
  | .bool => .bools (List.replicate n false)
  | .int => .ints (List.replicate n 0)
  | .uint => .uints (List.replicate n 0)
  | .float => .floats (List.replicate n 0.0)

/-- The identity matrix by columns: one where column and row have the same number. -/
def identityColumns (columns rows : Nat) : List Float32 :=
  (List.range columns).flatMap fun c => (List.range rows).map fun r => if c = r then 1.0 else 0.0

/-- The value with which a uniform of the type is registered. -/
def BaseType.initialValue : BaseType → Value
  | scalar s => Value.zero 1 s
  | vector s n => Value.zero n.toNat s
  | matrix c r => .floats (identityColumns c.toNat r.toNat)
  | sampler _ => .textureUnit 0

/-- The number of components of a value. -/
def Value.size : Value → Nat
  | bools cs => cs.length
  | ints cs => cs.length
  | uints cs => cs.length
  | floats cs => cs.length
  | textureUnit _ => 1

theorem BaseType.size_initialValue (t : BaseType) : t.initialValue.size = t.componentCount := by
  cases t with
  | scalar s => cases s <;> rfl
  | vector s n => cases s <;> cases n <;> rfl
  | matrix c r => cases c <;> cases r <;> rfl
  | sampler k => rfl

end ShaderInterface.Glsl
