import ShaderInterface.Macro.Definition
import ShaderInterface.Macro.Expr
import ShaderInterface.NameMap
import ShaderInterface.Error

/-!
# Macro tables

`Table.resolve` evaluates definitions that may use each other. Every pass goes once through the
definitions that wait and evaluates each under the values found so far; one that lacks a name
waits for the next pass. Resolution ends when none waits. It fails when a value is no expression,
when a pass finds no value, and when the passes are used up, so that a cycle or an undefined name
cannot keep it going.
-/

namespace ShaderInterface.Macro

/-- Macros with their values, in the order in which the values were found. -/
structure Table where
  order : List String := []
  values : NameMap Literal := ∅

/-- Why a macro has no value. -/
inductive Cause where
  /-- The passes are used up. -/
  | passLimit (limit : Nat)
  /-- The value is no expression, or has no result. -/
  | unreadable (value : String) (fault : Fault)
  /-- The value uses a name that no definition has. -/
  | undefinedName (name : String)
  /-- The values of the macros use each other. -/
  | circular (names : List String)

/-- A macro without a value. -/
structure Failure where
  name : String
  cause : Cause

/-- The text of a cause. -/
def Cause.reason : Cause → String
  | passLimit limit => "not resolved after " ++ toString limit ++ " passes"
  | unreadable value fault => "cannot evaluate '" ++ value ++ "': " ++ fault.message
  | undefinedName name => "references undefined name '" ++ name ++ "'"
  | circular names => "circular definition between " ++ ", ".intercalate names

/-- A failure as an error of the library. -/
def Failure.toError (failure : Failure) : Error :=
  .macroResolution failure.name failure.cause.reason

/-- The part of the library that speaks in log entries. -/
def source : String := "shader_meta::defines"

/-- Put a definition in the place of the one with its name, or behind all others. -/
def replaceOrAppend (d : Definition) : List Definition → List Definition
  | [] => [d]
  | e :: ds => if e.name = d.name then d :: ds else e :: replaceOrAppend d ds

/-- The definitions that count: of each name the last, in the place of the first. -/
def effective (definitions : List Definition) : List Definition :=
  definitions.foldl (fun ds d => replaceOrAppend d ds) []

namespace Table

/-- The value of a name. -/
def get? (table : Table) (name : String) : Option Literal := table.values[name]?

/-- The number of macros. -/
def size (table : Table) : Nat := table.values.size

/-- No macro has a value. -/
def isEmpty (table : Table) : Bool := table.values.isEmpty

/-- The value of an expression over the macros. -/
def eval (table : Table) (s : List Char) : Except EvalError Literal := Macro.eval table.get? s

/-- The table with one macro more. -/
def add (table : Table) (name : String) (value : Literal) : Table where
  order := table.order ++ [name]
  values := table.values.insert name value

/-- The macros with their values, in the order in which the values were found. -/
def entries (table : Table) : List (String × Literal) :=
  table.order.filterMap fun name => (table.get? name).map (name, ·)

/-- The name without a value at which the evaluation of a definition stops. -/
def blocker? (table : Table) (d : Definition) : Option String :=
  match table.eval d.value.toList with
  | .error (.unresolved name) => some name
  | _ => none

/-- A pass through the waiting definitions: the table with the values found, and the definitions
that wait on. `number` counts the passes from one. -/
def pass (number : Nat) :
    List Definition → Table → ExceptT Failure Logged (Table × List Definition)
  | [], table => pure (table, [])
  | d :: ds, table =>
    match table.eval d.value.toList with
    | .ok value => do
      Logged.trace source (d.name ++ " = " ++ value.render)
      pass number ds (table.add d.name value)
    | .error (.unresolved missing) => do
      Logged.debug source
        ("'" ++ d.name ++ "' waits for '" ++ missing ++ "' (pass " ++ toString number ++ ")")
      let (table, waiting) ← pass number ds table
      pure (table, d :: waiting)
    | .error (.invalid fault) => throw ⟨d.name, .unreadable d.value fault⟩

/-- Why a pass found no value: the first definition that lacks a name which none of the waiting
definitions has, or else a cycle among the waiting definitions. -/
def stalled (table : Table) (waiting : List Definition) : Failure :=
  let names := waiting.map (·.name)
  let undefined := waiting.findSome? fun d => do
    let missing ← table.blocker? d
    if missing ∈ names then none else some ⟨d.name, .undefinedName missing⟩
  undefined.getD ⟨names.headD "", .circular names⟩

/-- Passes through the waiting definitions until none waits, `remaining` of `limit` at most. -/
def run (limit : Nat) : Nat → List Definition → Table → ExceptT Failure Logged Table
  | remaining, [], table => do
    Logged.debug source
      ("Resolved " ++ toString table.size ++ " macros in " ++ toString (limit - remaining) ++
        " passes")
    pure table
  | 0, d :: _, _ => throw ⟨d.name, .passLimit limit⟩
  | remaining + 1, d :: ds, table => do
    let (table, waiting) ← pass (limit - remaining) (d :: ds) table
    if waiting.length = (d :: ds).length then throw (stalled table waiting)
    run limit remaining waiting table

/-- The macros that definitions make, in at most `limit` passes. -/
def resolve (definitions : List Definition) (limit : Nat) : ExceptT Failure Logged Table :=
  run limit limit (effective definitions) {}

/-- The macros that definitions make, in at most `limit` passes; a failure is recorded with the
message of its error. -/
def ofDefinitions (definitions : List Definition) (limit : Nat) : Diagnosed Table := ExceptT.mk do
  match ← (resolve definitions limit).run with
  | .ok table => pure (.ok table)
  | .error failure => (Diagnosed.fail source failure.toError : Diagnosed Table).run

/-- The macros that a text without comments defines, in at most `limit` passes. -/
def ofText (s : List Char) (limit : Nat) : Diagnosed Table := ofDefinitions (definitions s) limit

end Table

end ShaderInterface.Macro
