import ShaderInterface.Log
import ShaderInterface.Log.Instant
import ShaderInterface.Text.Occurrence

/-!
# Lines of output

A log entry as a line:

    [2023-11-14 22:13:20.123] [ERROR] [shader_meta::gl] message (file:line)

The place is left out unless both the file and the line are known. In colour, the label and the
source are wrapped in a style; a style that ends inside the wrapped text is taken up again behind
its end.
-/

namespace ShaderInterface.Log

open Text

/-- When and where an entry was made. -/
structure Origin where
  time : Instant
  file : Option String := none
  line : Option Nat := none
  deriving DecidableEq, Repr

/-- The text of the place at the end of a line. -/
def Origin.place (o : Origin) : String :=
  match o.file, o.line with
  | some file, some line => " (" ++ file ++ ":" ++ toString line ++ ")"
  | _, _ => ""

/-- A line with the given label and source. -/
def layLine (origin : Origin) (label source message : String) : String :=
  "[" ++ origin.time.text ++ "] [" ++ label ++ "] [" ++ source ++ "] " ++ message ++ origin.place

/-- The line of an entry, without colours. -/
def Entry.line (e : Entry) (origin : Origin) : String :=
  layLine origin e.severity.label e.source e.message

/-! ## Colours -/

/-- The sequence that begins a style. -/
def beginStyle (code : String) : String := "\x1b[" ++ code ++ "m"

/-- The sequence that ends all styles. -/
def endStyle : String := "\x1b[0m"

/-- A text with a further text behind each occurrence of a token. -/
def behindEach (token inserted : List Char) (s : List Char) : List Char :=
  match splitAt? token s with
  | none => s
  | some (before, after) =>
    if after.length < s.length then before ++ token ++ inserted ++ behindEach token inserted after
    else s
termination_by s.length

/-- A text in a style. -/
def styled (code text : String) : String :=
  beginStyle code ++
    String.ofList (behindEach endStyle.toList (beginStyle code).toList text.toList) ++ endStyle

/-- The style of a severity: grey, cyan, green, yellow, and bold red. -/
def Severity.style : Severity → String
  | .trace => "90"
  | .debug => "36"
  | .info => "32"
  | .warn => "33"
  | .error => "1;31"

/-- The style of a source, bright blue. -/
def sourceStyle : String := "94"

/-- The line of an entry, in colour. -/
def Entry.colouredLine (e : Entry) (origin : Origin) : String :=
  layLine origin (styled e.severity.style e.severity.label) (styled sourceStyle e.source) e.message

/-- What is written to the console for an entry. -/
def Entry.consoleText (e : Entry) (origin : Origin) (colours : Bool) : String :=
  (if colours then e.colouredLine origin else e.line origin) ++ "\n"

end ShaderInterface.Log
