/-!
# Base types

The types that a uniform or an attribute can have of itself: scalars, vectors, matrices and
samplers. A type has a spelling in shader text (`name`), a name and a number among the constants of
the graphics interface (`constantName`, `tag`), and each of these tells the types apart.
-/

namespace ShaderInterface.Glsl

/-- What the components of a scalar or a vector are. -/
inductive Scalar where
  | bool
  | int
  | uint
  | float
  deriving DecidableEq, Repr

/-- The length of a vector, or of a column or a row. -/
inductive Extent where
  | two
  | three
  | four
  deriving DecidableEq, Repr

/-- The texture a sampler reads. -/
inductive Texture where
  | flat
  | cube
  deriving DecidableEq, Repr

/-- A base type. -/
inductive BaseType where
  | scalar (of : Scalar)
  | vector (of : Scalar) (size : Extent)
  | matrix (columns rows : Extent)
  | sampler (of : Texture)
  deriving DecidableEq, Repr

namespace Extent

/-- The extent as a number. -/
def toNat : Extent → Nat
  | two => 2
  | three => 3
  | four => 4

/-- The digit of the extent. -/
def digit (n : Extent) : String := toString n.toNat

/-- All extents, in order. -/
def all : List Extent := [two, three, four]

end Extent

namespace Scalar

/-- The spelling of the scalar type. -/
def name : Scalar → String
  | bool => "bool"
  | int => "int"
  | uint => "uint"
  | float => "float"

/-- What stands before `vec` in the spelling of the vector type. -/
def vectorLetter : Scalar → String
  | bool => "b"
  | int => "i"
  | uint => "u"
  | float => ""

/-- The name of the scalar type among the constants of the graphics interface. -/
def constantName : Scalar → String
  | bool => "BOOL"
  | int => "INT"
  | uint => "UNSIGNED_INT"
  | float => "FLOAT"

/-- The number of the scalar type. -/
def tag : Scalar → Nat
  | bool => 0x8B56
  | int => 0x1404
  | uint => 0x1405
  | float => 0x1406

/-- The number of the vector type with two components; those with more follow it. -/
def vectorTag : Scalar → Nat
  | bool => 0x8B57
  | int => 0x8B53
  | uint => 0x8DC6
  | float => 0x8B50

end Scalar

namespace BaseType

/-- All base types: scalars, vectors, square matrices, the other matrices, samplers. -/
def all : List BaseType :=
  [.bool, .int, .uint, .float].map scalar ++
    [.bool, .int, .uint, .float].flatMap (fun s => Extent.all.map (vector s)) ++
    Extent.all.map (fun n => matrix n n) ++
    [(.two, .three), (.two, .four), (.three, .two), (.three, .four), (.four, .two),
      (.four, .three)].map (fun p => matrix p.1 p.2) ++
    [sampler .flat, sampler .cube]

/-- The spelling of a type. -/
def name : BaseType → String
  | scalar s => s.name
  | vector s n => s.vectorLetter ++ "vec" ++ n.digit
  | matrix c r => if c = r then "mat" ++ c.digit else "mat" ++ c.digit ++ "x" ++ r.digit
  | sampler .flat => "sampler2D"
  | sampler .cube => "samplerCube"

/-- The second spelling of a square matrix. -/
def longName : BaseType → Option String
  | matrix c r => if c = r then some ("mat" ++ c.digit ++ "x" ++ r.digit) else none
  | _ => none

/-- The type with the given spelling; a token that spells none may name a struct. -/
def ofToken? (token : String) : Option BaseType :=
  all.find? fun t => t.name == token || t.longName == some token

/-- The name of a type among the constants of the graphics interface. -/
def constantName : BaseType → String
  | scalar s => s.constantName
  | vector s n => s.constantName ++ "_VEC" ++ n.digit
  | matrix c r =>
    if c = r then "FLOAT_MAT" ++ c.digit else "FLOAT_MAT" ++ c.digit ++ "x" ++ r.digit
  | sampler .flat => "SAMPLER_2D"
  | sampler .cube => "SAMPLER_CUBE"

/-- The number of a type among the constants of the graphics interface. -/
def tag : BaseType → Nat
  | scalar s => s.tag
  | vector s n => s.vectorTag + (n.toNat - 2)
  | matrix .two .two => 0x8B5A
  | matrix .three .three => 0x8B5B
  | matrix .four .four => 0x8B5C
  | matrix .two .three => 0x8B65
  | matrix .two .four => 0x8B66
  | matrix .three .two => 0x8B67
  | matrix .three .four => 0x8B68
  | matrix .four .two => 0x8B69
  | matrix .four .three => 0x8B6A
  | sampler .flat => 0x8B5E
  | sampler .cube => 0x8B60

/-- The type with the given number. -/
def ofTag? (tag : Nat) : Option BaseType := all.find? fun t => t.tag == tag

/-- The columns and rows of a matrix. -/
def shape? : BaseType → Option (Extent × Extent)
  | matrix c r => some (c, r)
  | _ => none

/-- The number of scalar components. -/
def componentCount : BaseType → Nat
  | scalar _ | sampler _ => 1
  | vector _ n => n.toNat
  | matrix c r => c.toNat * r.toNat

/-- The type is that of a sampler. -/
def isSampler : BaseType → Bool
  | sampler _ => true
  | _ => false

theorem mem_all (t : BaseType) : t ∈ all := by
  cases t with
  | scalar s => cases s <;> decide
  | vector s n => cases s <;> cases n <;> decide
  | matrix c r => cases c <;> cases r <;> decide
  | sampler k => cases k <;> decide

theorem ofToken?_name (t : BaseType) : ofToken? t.name = some t := by
  have h : ∀ t ∈ all, ofToken? t.name = some t := by decide +kernel
  exact h t (mem_all t)

theorem ofTag?_tag (t : BaseType) : ofTag? t.tag = some t := by
  have h : ∀ t ∈ all, ofTag? t.tag = some t := by decide +kernel
  exact h t (mem_all t)

theorem tag_of_ofTag? {tag : Nat} {t : BaseType} (h : ofTag? tag = some t) : t.tag = tag := by
  simpa using List.find?_some h

end BaseType

end ShaderInterface.Glsl
