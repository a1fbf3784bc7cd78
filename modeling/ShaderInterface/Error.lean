import ShaderInterface.Log
import ShaderInterface.Glsl.Stage

/-!
# Errors

What can be wrong with a pair of shaders, by cause. `Error.message` is the only place where an
error becomes text. A computation of type `Diagnosed α` either fails with an error or gives a
value, and records log entries on the way; `Diagnosed.fail` records the message of the error with
which it ends.
-/

namespace ShaderInterface

open Glsl

/-- What can be wrong with a pair of shaders. -/
inductive Error where
  /-- A stage does not compile. -/
  | compile (stage : Stage) (log : String)
  /-- The stages compile but do not link. -/
  | link (log : String)
  /-- A type is neither a base type nor a defined struct. -/
  | unknownStruct (type declaration : String)
  /-- A macro has no value. -/
  | macroResolution (name reason : String)
  /-- The comment behind a declaration is no hint. -/
  | invalidHint (declaration reason : String)
  /-- An array size is no positive number. -/
  | invalidArraySize (declaration size : String)
  /-- A base type is required. -/
  | unsupportedType (declaration type : String)
  /-- The graphics interface reports a type by a number that stands for none. -/
  | unknownTag (name : String) (tag : Nat)
  /-- The graphics interface fails otherwise. -/
  | backend (text : String)
  deriving DecidableEq, Repr

namespace Error

/-- A number in upper-case hexadecimal with at least four digits. -/
def hexTag (tag : Nat) : String :=
  let digits := (Nat.toDigits 16 tag).map Char.toUpper
  String.ofList (List.replicate (4 - digits.length) '0' ++ digits)

/-- The text of an error. -/
def message : Error → String
  | compile stage log => stage.name ++ " shader failed to compile: " ++ log
  | link log => "Program failed to link: " ++ log
  | unknownStruct type declaration =>
    "Unknown type '" ++ type ++ "' for declaration '" ++ declaration ++
      "' (no matching struct definition)"
  | macroResolution name reason => "Macro resolution failed for '" ++ name ++ "': " ++ reason
  | invalidHint declaration reason =>
    "Invalid UI spec for '" ++ declaration ++ "': " ++ reason
  | invalidArraySize declaration size =>
    "Invalid array size '" ++ size ++ "' for declaration '" ++ declaration ++ "'"
  | unsupportedType declaration type =>
    "Unsupported type '" ++ type ++ "' for declaration '" ++ declaration ++ "'"
  | unknownTag name tag =>
    "Unknown type tag 0x" ++ hexTag tag ++ " reported for '" ++ name ++ "'"
  | backend text => "Backend error: " ++ text

end Error

/-- A computation that may fail with an error and records log entries. -/
abbrev Diagnosed := ExceptT Error Logged

namespace Diagnosed

variable {α : Type}

/-- The outcome of a computation. -/
def outcome (x : Diagnosed α) : Except Error α := x.run.value

/-- The entries a computation records. -/
def entries (x : Diagnosed α) : List Log.Entry := x.run.entries

/-- Record the message of an error under a source and fail with it. -/
def fail (source : String) (e : Error) : Diagnosed α := do
  Logged.error source e.message
  throw e

/-- The value if there is one; otherwise fail with the error. -/
def ofOption (source : String) (e : Error) : Option α → Diagnosed α
  | some a => pure a
  | none => fail source e

/-- Record what a computation records and give its outcome as a value. -/
def attempt (x : Diagnosed α) : Logged (Except Error α) := x.run

@[simp]
theorem outcome_fail (source : String) (e : Error) :
    (fail source e : Diagnosed α).outcome = .error e := rfl

@[simp]
theorem entries_fail (source : String) (e : Error) :
    (fail source e : Diagnosed α).entries =
      [{ severity := .error, source, message := e.message, located := true }] := rfl

end Diagnosed

/-- Record a message of the graphics interface and give it as an error. -/
def backendFailure (source message : String) : Logged Error := do
  Logged.error source message
  pure (.backend message)

end ShaderInterface
