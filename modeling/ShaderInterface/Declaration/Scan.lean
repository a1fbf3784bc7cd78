import ShaderInterface.Declaration
import ShaderInterface.Declaration.Trailing
import ShaderInterface.Log

/-!
# Scanning for declarations

`scan` reads the declarations in a text without comments, in the order in which they stand. The
text as it was written supplies what trails each declaration on the line of its semicolon.
-/

namespace ShaderInterface.Declaration

open Text

/-- The part of the library that speaks in log entries. -/
def source : String := "shader_meta::scan"

/-- The name and the size of each declarator of a statement. What stands between two commas and is
no declarator is passed over. -/
def Statement.named (st : Statement) : List (List Char × Option (List Char)) :=
  (st.declarators.flatMap pieces).filterMap declarator?

/-- The number of line feeds in a text before its end `rest`. -/
def linesBefore (s rest : List Char) : Nat := s.count '\n' - rest.count '\n'

/-- The declarations of a statement in the text `s`. -/
def ofStatement (keyword : Keyword) (s : List Char) (written : List (List Char))
    (st : Statement) : List Declaration :=
  let index := linesBefore s st.rest
  st.named.map fun (name, size) =>
    { keyword
      precision := st.precision
      type := String.ofList st.type
      name := String.ofList name
      size := size.map fun text => String.ofList (trim text)
      trailing := String.ofList ((written[index]?.map (trailingText name)).getD [])
      line := index + 1 }

/-- The declarations with the given keyword in the text `s` without comments, whose lines are
those of the text `written`. Only names that `keep` admits are declared. -/
def scan (s written : List Char) (keyword : Keyword) (keep : String → Bool := fun _ => true) :
    List Declaration :=
  let written := lines written
  ((statements keyword.word.toList s).flatMap (ofStatement keyword s written)).filter
    fun d => keep d.name

/-- The log entry for a declaration that was found. -/
def entry (d : Declaration) : Log.Entry where
  severity := .trace
  source := source
  message :=
    "line " ++ toString d.line ++ ": " ++ d.keyword.word ++ " " ++ d.type ++ " " ++ d.name

/-- The declarations in a text, each recorded as it is found. -/
def scanned (s written : List Char) (keyword : Keyword) (keep : String → Bool := fun _ => true) :
    Logged (List Declaration) := do
  let declarations := scan s written keyword keep
  Logged.recordAll (declarations.map entry)
  pure declarations

end ShaderInterface.Declaration
