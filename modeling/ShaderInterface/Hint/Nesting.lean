import ShaderInterface.Hint.Value

/-!
# Nesting of brackets

How deep the brackets and braces of a text nest, counted from its characters alone. Quoted spans
are passed over; a backslash in one protects the next character. Comments are not recognised, and a
closing bracket that closes nothing is passed over.
-/

namespace ShaderInterface.Hint

/-- Where in a text a character stands. -/
inductive Place where
  | outside
  | quoted (mark : Char)
  /-- Behind a backslash in a quoted span. -/
  | escaped (mark : Char)
  deriving DecidableEq, Repr

/-- A quote that opens or closes a quoted span. -/
def isQuote (c : Char) : Bool := c == '"' || c == '\''

/-- A bracket or brace that opens. -/
def isOpening (c : Char) : Bool := c == '[' || c == '\x7b'

/-- A bracket or brace that closes. -/
def isClosing (c : Char) : Bool := c == ']' || c == '\x7d'

/-- The place behind a character. -/
def Place.next : Place → Char → Place
  | outside, c => if isQuote c then quoted c else outside
  | quoted mark, c => if c = '\\' then escaped mark else if c = mark then outside else quoted mark
  | escaped mark, _ => quoted mark

/-- The number of open brackets behind a character that stands in the given place, where `depth`
are open before it. -/
def depthAfter (place : Place) (depth : Nat) (c : Char) : Nat :=
  if place = .outside then
    if isOpening c then depth + 1 else if isClosing c then depth - 1 else depth
  else depth

/-- The greatest number of open brackets in a text that begins in the given place with `depth`
brackets open. -/
def nestingFrom (place : Place) (depth : Nat) : List Char → Nat
  | [] => depth
  | c :: s => max depth (nestingFrom (place.next c) (depthAfter place depth c) s)

/-- The greatest number of brackets that are open at one time in a text. -/
def nesting (s : List Char) : Nat := nestingFrom .outside 0 s

end ShaderInterface.Hint
