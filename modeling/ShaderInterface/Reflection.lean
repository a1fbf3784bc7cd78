import ShaderInterface.Reflection.Declared

/-!
# Reflection

The interface of a program as a graphics context reports it. The report is the truth about names,
types and sizes; the texts of the stages only tell which stage declares a uniform, and which hints
it gives. A program that does not compile or link has the empty interface with the failures
recorded; a type that is not known is an error.

The slots of the variables are summed up with 32 bits. What becomes of a sum that does not fit is
up to how the library is built (`Overflow`).
-/

namespace ShaderInterface.Reflection

open Glsl

/-- The base type of an active variable. -/
def baseType (v : ActiveVariable) : Diagnosed BaseType :=
  Diagnosed.ofOption source (.unknownTag v.name v.tag) (BaseType.ofTag? v.tag)

/-- An active variable with its base type. -/
def typed (v : ActiveVariable) : Diagnosed (ActiveVariable × BaseType) := do
  let type ← baseType v
  return (v, type)

/-- The uniform entry of an active variable. A size above one makes an array; the entry stands for
the whole of it. -/
def uniformEntry (v : ActiveVariable) (type : BaseType) (stage : Stage) : Uniform :=
  if 1 < v.size then
    { name := v.name, type, count := v.size, kind := .element, stages := .single stage }
  else .plain v.name type stage

/-- The attribute entry of an active variable. -/
def attributeEntry (v : ActiveVariable) (type : BaseType) : Attribute :=
  { name := v.name, type, count := v.size, stages := .single .vertex }

/-- A uniform is taken to be in a stage that declares it, and in both where neither is found to. -/
def inStage (said other : Declared) (v : ActiveVariable) : Bool :=
  said.declares v.declaredName || !other.declares v.declaredName

/-- The interface of a stage with the uniforms that are in it. -/
def stageInterface (stage : Stage) (text : String) (said other : Declared)
    (uniforms : List (ActiveVariable × BaseType)) : StageInterface :=
  (uniforms.filter fun (v, _) => inStage said other v).foldl
    (fun i (v, type) => i.insertUniform (uniformEntry v type stage))
    { stage, source := text, hints := said.hints }

/-- The interface that a report makes with the texts of the stages; its slots are not those of the
report yet. -/
def build (parse : Hint.Parser) (report : Report) (vertex fragment : String) :
    Diagnosed ProgramInterface := do
  let active := report.uniforms.map ActiveVariable.declaredName
  let v ← Declared.ofText parse vertex active
  let f ← Declared.ofText parse fragment active
  let uniforms ← report.uniforms.mapM typed
  let attributes ← report.attributes.mapM typed
  let vertexInterface := attributes.foldl
    (fun i (a, type) => i.insertAttribute (attributeEntry a type))
    (stageInterface .vertex vertex v f uniforms)
  return vertexInterface.merge (stageInterface .fragment fragment f v uniforms)

/-- What becomes of a sum that does not fit. -/
inductive Overflow where
  /-- The library is built with overflow checks, and the sum stops the program. -/
  | stops
  /-- The library is built without them, and the sum wraps around. -/
  | wraps
  deriving DecidableEq, Repr

/-- The number of slots that variables take. -/
def slots (active : List ActiveVariable) : Nat := (active.map (·.size)).foldr (· + ·) 0

/-- The number of slots as a sum of 32 bits, unless it stops the program. -/
def Overflow.slots? (overflow : Overflow) (active : List ActiveVariable) : Option Nat :=
  match overflow with
  | .stops => if slots active < 2 ^ 32 then some (slots active) else none
  | .wraps => some (slots active % 2 ^ 32)

/-- The interface with the slots that a report counts. -/
def counted? (overflow : Overflow) (report : Report) (p : ProgramInterface) :
    Option ProgramInterface := do
  let uniformSlots ← overflow.slots? report.uniforms
  let attributeSlots ← overflow.slots? report.attributes
  return { p with uniformSlots, attributeSlots }

/-- What ends a reflection without an interface. -/
inductive Stop where
  | failure (e : Error)
  /-- The program is stopped by a sum that does not fit. -/
  | overflow
  deriving DecidableEq, Repr

/-- The interface that a report makes with the texts of the stages and the slots that it counts. -/
def ofReport (parse : Hint.Parser) (overflow : Overflow) (report : Report)
    (vertex fragment : String) : Logged (Except Stop ProgramInterface) := do
  match ← (build parse report vertex fragment).attempt with
  | .error e => return .error (.failure e)
  | .ok merged =>
    match counted? overflow report merged with
    | none => return .error .overflow
    | some program =>
      Logged.debug source
        ("Reflected " ++ toString program.uniforms.size ++ " uniforms (" ++
          toString program.uniformSlots ++ " slots), " ++ toString program.attributes.size ++
          " attributes")
      return .ok program

/-- The interface of a program as a graphics context reports it. -/
def reflect {σ Shader Program : Type} (parse : Hint.Parser) (overflow : Overflow)
    (context : Context σ Shader Program) (vertex fragment : String) :
    Step σ (Except Stop ProgramInterface) := do
  match ← context.report vertex fragment with
  | .ok report => ofReport parse overflow report vertex fragment
  | .error failures => return .ok (.failed vertex fragment failures)

end ShaderInterface.Reflection
