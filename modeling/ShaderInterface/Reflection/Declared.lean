import ShaderInterface.Hint
import ShaderInterface.Comment
import ShaderInterface.Declaration.Scan
import ShaderInterface.Reflection.Context

/-!
# What a text says of active variables

The text of a stage is read only for the names that are active: which of them it declares, and
which hints it gives them. A comment that is no hint counts as an empty one.
-/

namespace ShaderInterface.Reflection

/-- What the text of a stage says of the active uniforms. -/
structure Declared where
  /-- The names that the stage declares. -/
  names : List String := []
  /-- The hints by the declared name. -/
  hints : NameMap Hint.Fields := ∅

namespace Declared

/-- The hint of a declaration; a comment that is none is recorded and counts as empty. -/
def hint (parse : Hint.Parser) (d : Declaration) : Logged (Option Hint.Fields) :=
  match Hint.ofTrailing parse d.trailing.toList with
  | .ok fields => pure fields
  | .error flaw => do
    Logged.warn source
      ((Error.invalidHint d.name flaw.message).message ++ ", using an empty spec")
    return some []

/-- What is said with a declaration taken in. -/
def declare (said : Declared) (d : Declaration) (fields : Option Hint.Fields) : Declared where
  names := d.name :: said.names
  hints := match fields with
    | some fields => said.hints.insert d.name fields
    | none => said.hints

/-- What a text says of the uniforms with the given names. -/
def ofText (parse : Hint.Parser) (text : String) (active : List String) : Logged Declared := do
  let declarations ← Declaration.scanned (Comment.blank text.toList) text.toList .uniform
    fun name => name ∈ active
  let fields ← declarations.mapM (hint parse)
  return (declarations.zip fields).foldl (fun said (d, fields) => said.declare d fields) {}

/-- The stage declares the name. -/
def declares (said : Declared) (name : String) : Bool := name ∈ said.names

end Declared

end ShaderInterface.Reflection
