import ShaderInterface.Reflection.Context
import ShaderInterface.Text.Blank

/-!
# Contexts over GL

A graphics context that works through the calls of GL. A shader that does not compile and a program
that does not link are deleted on the spot. The answers of GL are given by a script; objects are
numbered from one in the order of their creation, and every call that creates, uses, asks about or
deletes an object is written down.
-/

namespace ShaderInterface.Reflection.Gl

open Glsl Text

/-- The part of the library that speaks in log entries. -/
def source : String := "shader_meta::gl"

/-- The status and the info log of an object. -/
structure Status where
  status : Int
  log : String
  deriving DecidableEq, Repr

/-- Compiling or linking has succeeded. -/
def Status.succeeded (s : Status) : Bool := s.status = 1

/-- An active variable as GL lists it. -/
structure Listed where
  name : String
  tag : Nat
  size : Int
  deriving DecidableEq, Repr

/-- The active variable that GL lists; a negative size counts as zero. -/
def Listed.toActive (l : Listed) : ActiveVariable :=
  { name := l.name, tag := l.tag, size := l.size.toNat }

/-- What GL answers. For each index below the number of active variables it lists one, or none. -/
structure Script where
  vertex : Status
  fragment : Status
  link : Status
  uniforms : List (Option Listed)
  attributes : List (Option Listed)
  deriving DecidableEq, Repr

/-- The status of the shader of a stage. -/
def Script.shader (script : Script) : Stage → Status
  | .vertex => script.vertex
  | .fragment => script.fragment

/-- A call of GL on objects. -/
inductive Call where
  | createShader (stage : Stage) (shader : Nat)
  /-- Give a shader a text of so many bytes. -/
  | shaderSource (shader bytes : Nat)
  | compileShader (shader : Nat)
  | getShaderStatus (shader : Nat)
  | getShaderLog (shader : Nat)
  | deleteShader (shader : Nat)
  | createProgram (program : Nat)
  | attachShader (program shader : Nat)
  | linkProgram (program : Nat)
  | detachShader (program shader : Nat)
  | getProgramStatus (program : Nat)
  | getProgramLog (program : Nat)
  | getUniformCount (program : Nat)
  | getUniform (program index : Nat)
  | getAttributeCount (program : Nat)
  | getAttribute (program index : Nat)
  | deleteProgram (program : Nat)
  deriving DecidableEq, Repr

/-- The objects and calls of GL so far. -/
structure State where
  /-- The number of objects created. -/
  created : Nat := 0
  calls : List Call := []
  deriving DecidableEq, Repr

/-- Make a call. -/
def call (c : Call) : Step State Unit := modify fun st => { st with calls := st.calls ++ [c] }

/-- Create an object by a call. -/
def create (c : Nat → Call) : Step State Nat := do
  let object := (← get).created + 1
  modify fun st => { st with created := object }
  call (c object)
  return object

/-- The text of a failure: the info log without the blanks around it, or a text that says there is
none. -/
def failureText (log what : String) : String :=
  let trimmed := String.ofList (trim log.toList)
  if trimmed.isEmpty then what ++ " failed without an info log" else trimmed

/-- Compile a stage. -/
def compile (script : Script) (stage : Stage) (text : String) :
    Step State (Except String Nat) := do
  let shader ← create (.createShader stage)
  call (.shaderSource shader text.utf8ByteSize)
  call (.compileShader shader)
  call (.getShaderStatus shader)
  let status := script.shader stage
  if status.succeeded then
    Logged.trace source (stage.name ++ " shader compiled")
    return .ok shader
  call (.getShaderLog shader)
  call (.deleteShader shader)
  return .error (failureText status.log "Compilation")

/-- Link two shaders. -/
def link (script : Script) (vertex fragment : Nat) : Step State (Except String Nat) := do
  let program ← create .createProgram
  call (.attachShader program vertex)
  call (.attachShader program fragment)
  call (.linkProgram program)
  call (.detachShader program vertex)
  call (.detachShader program fragment)
  call (.getProgramStatus program)
  if script.link.succeeded then
    Logged.trace source "Program linked"
    return .ok program
  call (.getProgramLog program)
  call (.deleteProgram program)
  return .error (failureText script.link.log "Link")

/-- Ask for the number of active variables, and for the variable of each index. -/
def listActive (count : Call) (query : Nat → Call) (answers : List (Option Listed)) :
    Step State (List ActiveVariable) := do
  call count
  let listed ← answers.zipIdx.mapM fun (answer, index) => do
    call (query index)
    return answer
  return (listed.filterMap id).map Listed.toActive

/-- The graphics context over GL. -/
def context (script : Script) : Context State Nat Nat where
  compile := compile script
  link := link script
  activeUniforms program :=
    listActive (.getUniformCount program) (.getUniform program) script.uniforms
  activeAttributes program :=
    listActive (.getAttributeCount program) (.getAttribute program) script.attributes
  deleteShader shader := call (.deleteShader shader)
  deleteProgram program := call (.deleteProgram program)

end ShaderInterface.Reflection.Gl
