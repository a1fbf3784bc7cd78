import ShaderInterface.Struct
import ShaderInterface.Interface.Variable

/-!
# Expansion of declarations

A declaration of base type makes one entry, or one for each element of its array. A declaration of
struct type makes an entry for each field of each element, and for each element of a field that is
an array, in the order of array index, field and field index.
-/

namespace ShaderInterface.Struct

open Glsl

/-- The part of the library that speaks in log entries. -/
def source : String := "shader_meta::structs"

/-- The names that stand for a name with the given array length, each with its index. -/
def elements (name : String) (count : Nat) : List (String × Nat) :=
  if count = 0 then [(name, 0)]
  else (List.range count).map fun i => (elementName name i, i)

/-- The entries of a variable of base type. -/
def baseEntries (name : String) (type : BaseType) (count : Nat) (stage : Stage) : List Uniform :=
  if count = 0 then [.plain name type stage]
  else (List.range count).map fun i => .element name type i count stage

/-- The names that stand for a field of the variable `name`. -/
def Field.names (f : Field) (name : String) : List String :=
  let qualified := name ++ "." ++ f.name
  match f.length with
  | some length => (List.range length).map (elementName qualified)
  | none => [qualified]

/-- The entries of a variable of struct type whose fields have the given base types. -/
def fieldEntries (structType name : String) (fields : List (Field × BaseType)) (count : Nat)
    (stage : Stage) : List Uniform :=
  (elements name count).flatMap fun (element, index) =>
    fields.flatMap fun (f, type) =>
      (f.names element).map fun entry =>
        { name := entry, type, count, index, kind := .field structType name,
          stages := .single stage }

/-- A field with its base type. Fields of other types are not supported. -/
def Field.typed (name : String) (f : Field) : Diagnosed (Field × BaseType) := do
  let type ← Diagnosed.ofOption source (.unsupportedType (name ++ "." ++ f.name) f.type)
    (BaseType.ofToken? f.type)
  pure (f, type)

/-- The entries that a declaration of the type makes, with the given array length. -/
def expand (table : Table) (type name : String) (count : Nat) (stage : Stage) :
    Diagnosed (List Uniform) :=
  match BaseType.ofToken? type with
  | some base => pure (baseEntries name base count stage)
  | none => do
    let definition ← Diagnosed.ofOption source (.unknownStruct type name) table[type]?
    if let e :: _ := definition.errors then Diagnosed.fail source e
    let fields ← definition.fields.mapM (Field.typed name)
    let entries := fieldEntries definition.type name fields count stage
    Logged.trace source
      (type ++ " " ++ name ++ " expanded to " ++ toString entries.length ++ " entries")
    pure entries

end ShaderInterface.Struct
