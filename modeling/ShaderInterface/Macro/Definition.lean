import ShaderInterface.Text.Blank
import ShaderInterface.Text.Identifier
import ShaderInterface.Text.Occurrence
import ShaderInterface.Text.Split

/-!
# Macro definitions

A line `#define NAME VALUE` defines a macro. Between its words stand spaces and tabs, at its end
possibly a carriage return; a name without a value, or with a parenthesis right behind it, defines
nothing here. `definitions` reads a text line by line.
-/

namespace ShaderInterface.Macro

open Text

/-- A macro definition: the value is a text yet to be evaluated. -/
structure Definition where
  name : String
  value : String
  /-- The number of the line, counted from one. -/
  line : Nat
  deriving DecidableEq, Repr

/-- What follows one gap or more. -/
def dropGaps? : List Char → Option (List Char)
  | c :: s => if isGap c then some (s.dropWhile isGap) else none
  | [] => none

/-- The text before a carriage return at its end. -/
def dropReturn (s : List Char) : List Char := if s.getLast? = some '\r' then s.dropLast else s

/-- The value text of a definition, from what follows its name: it holds no carriage return and
not only blanks. -/
def valueText? (s : List Char) : Option (List Char) :=
  let text := dropReturn s
  if '\r' ∈ text then none
  else
    let value := trim text
    if value.isEmpty then none else some value

/-- The name and the value that a line defines. -/
def definitionOfLine? (line : List Char) : Option (List Char × List Char) := do
  let s ← afterPrefix? ['#'] (line.dropWhile isGap)
  let s ← afterPrefix? "define".toList (s.dropWhile isGap)
  let s ← dropGaps? s
  let (name, s) ← takeIdentifier s
  let s ← dropGaps? s
  let value ← valueText? s
  some (name, value)

/-- The definition that a line with the given number, counted from zero, makes. -/
def Definition.ofLine? (line : List Char) (index : Nat) : Option Definition :=
  (definitionOfLine? line).map fun (name, value) =>
    { name := String.ofList name, value := String.ofList value, line := index + 1 }

/-- The definitions in a text without comments, in the order of their lines. -/
def definitions (s : List Char) : List Definition :=
  (lines s).zipIdx.filterMap fun (line, index) => Definition.ofLine? line index

end ShaderInterface.Macro
