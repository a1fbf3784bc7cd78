import ShaderInterface.Reflection.Context

/-!
# Scripted contexts

A graphics context that plays back a script and writes down what it is asked for, so that
reflection can be tried without a graphics interface. The handle of a shader is its stage, and
there is one program.
-/

namespace ShaderInterface.Reflection.Scripted

open Glsl

/-- What a scripted context answers. -/
structure Script where
  /-- The text with which the vertex stage fails. -/
  vertexFailure : Option String := none
  /-- The text with which the fragment stage fails. -/
  fragmentFailure : Option String := none
  /-- The text with which linking fails. -/
  linkFailure : Option String := none
  report : Report

/-- The handle of the only program. -/
structure Handle where
  deriving DecidableEq, Repr

/-- What a scripted context is asked for. -/
inductive Request where
  /-- Compile a stage from a text of so many bytes. -/
  | compile (stage : Stage) (bytes : Nat)
  | link (first second : Stage)
  | activeUniforms
  | activeAttributes
  | deleteShader (stage : Stage)
  | deleteProgram
  deriving DecidableEq, Repr

/-- The text with which a stage fails. -/
def Script.failure? (script : Script) : Stage → Option String
  | .vertex => script.vertexFailure
  | .fragment => script.fragmentFailure

/-- A result that fails if there is a text to fail with. -/
def resultOf {α : Type} (failure : Option String) (a : α) : Except String α :=
  match failure with
  | some text => .error text
  | none => .ok a

/-- Write down a request. -/
def ask (request : Request) : Step (List Request) Unit := modify (· ++ [request])

/-- The context that plays back a script. Its state is the list of requests so far. -/
def context (script : Script) : Context (List Request) Stage Handle where
  compile stage text := do
    ask (.compile stage text.utf8ByteSize)
    return resultOf (script.failure? stage) stage
  link v f := do
    ask (.link v f)
    return resultOf script.linkFailure {}
  activeUniforms _ := do
    ask .activeUniforms
    return script.report.uniforms
  activeAttributes _ := do
    ask .activeAttributes
    return script.report.attributes
  deleteShader stage := ask (.deleteShader stage)
  deleteProgram _ := ask .deleteProgram

end ShaderInterface.Reflection.Scripted
