import ShaderInterface.Comment
import ShaderInterface.Declaration.Scan
import ShaderInterface.Interface.Program
import ShaderInterface.Macro.Substitution
import ShaderInterface.Struct.Expansion

/-!
# Analysis of shader texts

The interface of a stage from its text alone. Comments are blanked, macros are resolved and put
into the text, structs are collected, and every uniform and attribute declaration is read on its
own (`uniformReading`, `attributeReading`); the readings are then put together in the order of the
declarations, where a later declaration of a name replaces an earlier one. The first failure ends
the analysis of a stage.

`program` fails where a stage fails, `tolerantProgram` records the failures of both stages. The
parser that reads the hints of declarations is an argument of all of these.
-/

namespace ShaderInterface.Analysis

open Glsl

/-- The part of the library that speaks in log entries. -/
def source : String := "shader_meta::static"

/-- The settings of an analysis. -/
structure Config where
  /-- How many passes the resolution of macros takes at most. -/
  macroPasses : Nat := 64
  /-- Macros are put into the text before declarations are read. -/
  substituteMacros : Bool := true
  /-- Uniforms of struct type are read; otherwise they are passed over. -/
  expandStructs : Bool := true
  deriving DecidableEq, Repr

/-- What the declarations of a stage are read with. -/
structure Scope where
  /-- The parser of hints. -/
  parse : Hint.Parser
  stage : Stage
  macros : Macro.Table
  structs : Struct.Table
  expandStructs : Bool

/-- The array length of a declaration, zero where it has no size. -/
def arrayLength (scope : Scope) (d : Declaration) : Diagnosed Nat :=
  match d.size with
  | none => pure 0
  | some size =>
    Diagnosed.ofOption source (.invalidArraySize d.name size)
      ((scope.macros.eval size.toList).toOption.bind Macro.Literal.positive?)

/-- The hint of a declaration. -/
def hint (scope : Scope) (d : Declaration) : Diagnosed (Option Hint.Fields) :=
  match Hint.ofTrailing scope.parse d.trailing.toList with
  | .ok fields => pure fields
  | .error flaw => Diagnosed.fail source (.invalidHint d.name flaw.message)

/-- What a uniform declaration says. -/
structure UniformReading where
  /-- The declared name. -/
  name : String
  entries : List Uniform
  hint : Option Hint.Fields

/-- What a uniform declaration says, read on its own. A declaration that is passed over says
nothing of its variable, but declares it anew all the same. -/
def uniformReading (scope : Scope) (d : Declaration) : Diagnosed UniformReading := do
  if (BaseType.ofToken? d.type).isNone && !scope.expandStructs then
    Logged.warn source
      ("Skipping struct uniform " ++ d.type ++ " " ++ d.name ++ " (struct expansion disabled)")
    return { name := d.name, entries := [], hint := none }
  let length ← arrayLength scope d
  let entries ← Struct.expand scope.structs d.type d.name length scope.stage
  let fields ← hint scope d
  return { name := d.name, entries, hint := fields }

/-- The attribute that a declaration makes. -/
def attributeReading (scope : Scope) (d : Declaration) : Diagnosed Attribute := do
  let type ← Diagnosed.ofOption source (.unsupportedType d.name d.type) (BaseType.ofToken? d.type)
  let count ← arrayLength scope d
  return { name := d.name, type, count, stages := .single scope.stage }

/-- The interface with a declaration taken in: what an earlier declaration of the name has left is
taken out first. -/
def declareUniform (i : StageInterface) (r : UniformReading) : StageInterface :=
  let i := r.entries.foldl StageInterface.insertUniform (i.removeUniform r.name)
  match r.hint with
  | some fields => i.withHint r.name fields
  | none => i

/-- The interface that readings make. -/
def assemble (stage : Stage) (text : String) (uniforms : List UniformReading)
    (attributes : List Attribute) : StageInterface :=
  attributes.foldl StageInterface.insertAttribute
    (uniforms.foldl declareUniform { stage, source := text })

/-- The text in which declarations are looked for, and what they are read with. -/
def prepare (parse : Hint.Parser) (config : Config) (stage : Stage) (text : List Char) :
    Diagnosed (List Char × Scope) := do
  let blanked := Comment.blank text
  let macros ← Macro.Table.ofText blanked config.macroPasses
  let scanned := if config.substituteMacros then macros.substitute blanked else blanked
  let structs := Struct.Table.ofText macros scanned
  return (scanned, { parse, stage, macros, structs, expandStructs := config.expandStructs })

/-- The interface of a stage. -/
def stage (parse : Hint.Parser) (config : Config) (which : Stage) (text : String) :
    Diagnosed StageInterface := do
  let (scanned, scope) ← prepare parse config which text.toList
  let uniforms ← Declaration.scanned scanned text.toList .uniform
  let uniforms ← uniforms.mapM (uniformReading scope)
  let attributes ← Declaration.scanned scanned text.toList .attribute
  let attributes ← attributes.mapM (attributeReading scope)
  let i := assemble which text uniforms attributes
  Logged.debug source
    (which.name ++ " stage: " ++ toString i.uniforms.size ++ " uniforms, " ++
      toString i.attributes.size ++ " attributes, " ++ toString i.hints.size ++ " ui specs")
  return i

/-- The interface of a program. The first stage that fails is the failure. -/
def program (parse : Hint.Parser) (config : Config) (vertex fragment : String) :
    Diagnosed ProgramInterface := do
  let v ← stage parse config .vertex vertex
  let f ← stage parse config .fragment fragment
  return v.merge f

/-- The text of a failure. -/
def failureText? {α : Type} : Except Error α → Option String
  | .ok _ => none
  | .error e => some e.message

/-- The interface of a program, empty where a stage fails, with the failures of both stages. -/
def tolerantProgram (parse : Hint.Parser) (config : Config) (vertex fragment : String) :
    Logged ProgramInterface := do
  let v ← (stage parse config .vertex vertex).attempt
  let f ← (stage parse config .fragment fragment).attempt
  match v, f with
  | .ok v, .ok f => return v.merge f
  | v, f => return .failed vertex fragment (.ofStages (failureText? v) (failureText? f))

end ShaderInterface.Analysis
