import ShaderInterface.Hint.Nesting
import ShaderInterface.Hint.Value
import ShaderInterface.Text.Blank
import ShaderInterface.Text.Occurrence

/-!
# Hints

A line comment behind a declaration hints at how the declared variable is edited:

    uniform float uAlpha; // {ui: "slider", min: 0, max: 1}

`ofTrailing` reads the hint from the text that trails a declaration. The hint is an
object; how deep it may nest is limited (`maxDepth`), and the limit is checked before the value is
read. The language in which values are written is that of the parser.
-/

namespace ShaderInterface.Hint

open Text

/-- How deep the brackets of a hint nest at most. -/
def maxDepth : Nat := 64

/-- What keeps a comment from being a hint. -/
inductive Flaw where
  /-- The brackets nest too deep. -/
  | tooDeep
  /-- The text is no value, for the reason that the parser gives. -/
  | malformed (reason : String)
  /-- The text is a value other than an object. -/
  | notObject (found : Value)

/-- The kind of a value, with its article. -/
def Value.describe : Value → String
  | .null => "null"
  | .bool _ => "a boolean"
  | .int _ => "a number"
  | .float _ => "a number"
  | .str _ => "a string"
  | .array _ => "an array"
  | .object _ => "an object"

/-- The text of a flaw. -/
def Flaw.message : Flaw → String
  | tooDeep => "nesting deeper than " ++ toString maxDepth ++ " levels"
  | malformed reason => reason
  | notObject found => "UI spec must be an object, found " ++ found.describe

/-- The text behind the mark of a line comment, if the trailing text is one and is not empty. -/
def payload? (trailing : List Char) : Option (List Char) :=
  ((afterPrefix? ['/', '/'] (trim trailing)).map trim).filter fun payload => !payload.isEmpty

/-- The fields that a text writes down as an object. -/
def readObject (parse : Parser) (payload : List Char) : Except Flaw Fields :=
  if maxDepth < nesting payload then .error .tooDeep
  else match parse payload with
  | .error reason => .error (.malformed reason)
  | .ok (.object fields) => .ok fields
  | .ok v => .error (.notObject v)

/-- The hint in the text that trails a declaration, if there is a comment. -/
def ofTrailing (parse : Parser) (trailing : List Char) : Except Flaw (Option Fields) :=
  match payload? trailing with
  | none => .ok none
  | some payload => (readObject parse payload).map some

end ShaderInterface.Hint
