import ShaderInterface.Error
import ShaderInterface.Interface.Program

/-!
# Graphics contexts

A graphics context compiles shaders, links them, and lists the variables that are active in a
linked program. `Context.report` takes a pair of shaders through it: every object that is created
is deleted before the report is given, whatever fails on the way.

A context works on a state `σ` of its own and may record log entries.
-/

namespace ShaderInterface.Reflection

open Glsl

/-- The part of the library that speaks in log entries. -/
def source : String := "shader_meta::reflect"

/-- A uniform or attribute that is active in a program. -/
structure ActiveVariable where
  /-- The name, `uLight.color` or `uWeights[0]` for example. -/
  name : String
  /-- The number that stands for the type. -/
  tag : Nat
  /-- The length of the array, one where there is none. -/
  size : Nat
  deriving DecidableEq, Repr

/-- The declared name that a qualified name begins with. -/
def baseName (name : String) : String :=
  String.ofList (name.toList.takeWhile fun c => c != '[' && c != '.')

/-- The declared name of the variable. -/
def ActiveVariable.declaredName (v : ActiveVariable) : String := baseName v.name

/-- The variables that are active in a program. -/
structure Report where
  uniforms : List ActiveVariable
  attributes : List ActiveVariable
  deriving DecidableEq, Repr

/-- A step of a graphics context with the state `σ`. -/
abbrev Step (σ : Type) := StateT σ Logged

/-- What a graphics context can do, with handles for shaders and programs. What fails to compile or
to link fails with the text that the context gives. -/
structure Context (σ Shader Program : Type) where
  compile : Stage → String → Step σ (Except String Shader)
  link : Shader → Shader → Step σ (Except String Program)
  activeUniforms : Program → Step σ (List ActiveVariable)
  activeAttributes : Program → Step σ (List ActiveVariable)
  deleteShader : Shader → Step σ Unit
  deleteProgram : Program → Step σ Unit

namespace Context

variable {σ Shader Program : Type}

/-- Compile a stage, and record a failure. -/
def compileRecorded (context : Context σ Shader Program) (stage : Stage) (text : String) :
    Step σ (Except String Shader) := do
  let result ← context.compile stage text
  if let .error log := result then Logged.error source (Error.compile stage log).message
  return result

/-- Delete a shader that was compiled. -/
def deleteCompiled (context : Context σ Shader Program) : Except String Shader → Step σ Unit
  | .ok shader => context.deleteShader shader
  | .error _ => pure ()

/-- The text of what failed. -/
def failure? {α : Type} : Except String α → Option String
  | .ok _ => none
  | .error log => some log

/-- The variables that are active in the program of two shaders, or what failed. Both stages are
compiled even where the first fails. -/
def report (context : Context σ Shader Program) (vertex fragment : String) :
    Step σ (Except Failures Report) := do
  let v ← context.compileRecorded .vertex vertex
  let f ← context.compileRecorded .fragment fragment
  match v, f with
  | .ok v, .ok f =>
    let linked ← context.link v f
    context.deleteShader v
    context.deleteShader f
    match linked with
    | .ok program =>
      let uniforms ← context.activeUniforms program
      let attributes ← context.activeAttributes program
      context.deleteProgram program
      return .ok { uniforms, attributes }
    | .error log =>
      Logged.error source (Error.link log).message
      return .error (Failures.withLink {} log)
  | v, f =>
    context.deleteCompiled v
    context.deleteCompiled f
    return .error (.ofStages (failure? v) (failure? f))

end Context

end ShaderInterface.Reflection
