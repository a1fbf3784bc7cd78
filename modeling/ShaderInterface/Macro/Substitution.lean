import ShaderInterface.Macro.Table

/-!
# Substitution of macros

A macro name is replaced where it stands alone: where it is a whole run of word characters. Lines
that begin with `#` are directives and stay as they are, and so does what lies between the runs.
-/

namespace ShaderInterface.Macro.Table

open Text

/-- The maximal runs of word characters in a text, and the texts between them, in order. -/
def wordRuns (s : List Char) : List (List Char) :=
  s.splitBy fun a b => isWordChar a == isWordChar b

/-- The text that stands for a run: the rendering of the macro it names, or the run. -/
def replaceRun (table : Table) (run : List Char) : List Char :=
  if isIdentifier run then
    match table.get? (String.ofList run) with
    | some value => value.render.toList
    | none => run
  else run

/-- The line is a directive. -/
def isDirective (line : List Char) : Bool := (trimLeft line).head? == some '#'

/-- A line with its macros replaced. -/
def substituteLine (table : Table) (line : List Char) : List Char :=
  if isDirective line then line else (wordRuns line).flatMap table.replaceRun

/-- A text with its macros replaced line by line. -/
def substitute (table : Table) (s : List Char) : List Char :=
  if table.isEmpty then s else unlines ((lines s).map table.substituteLine)

end ShaderInterface.Macro.Table
