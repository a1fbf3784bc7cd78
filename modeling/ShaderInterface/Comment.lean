/-!
# Comments

`blank` overwrites the comments of a shader text with spaces and leaves the rest as it is, line
feeds in comments included: every character keeps its place (`length_blank`), and no line feed
comes or goes (`count_newline_blank`). A quoted span is no place for a comment; it ends at its
quote or at the end of its line, and a backslash in it protects the next character of the line.
-/

namespace ShaderInterface.Comment

/-- Where in a text a character stands. -/
inductive Mode where
  | code
  | quoted (mark : Char)
  | line
  | block
  deriving DecidableEq, Repr

/-- A character that opens a quoted span. -/
def isQuote (c : Char) : Bool := c == '"' || c == '\''

/-- Overwrite the comments of a text that begins in the given mode. -/
def blankFrom : Mode → List Char → List Char
  | _, [] => []
  | .code, '/' :: '/' :: s => ' ' :: ' ' :: blankFrom .line s
  | .code, '/' :: '*' :: s => ' ' :: ' ' :: blankFrom .block s
  | .code, c :: s => c :: blankFrom (if isQuote c then .quoted c else .code) s
  | .quoted mark, '\\' :: c :: s =>
    '\\' :: c :: blankFrom (if c = '\n' then .code else .quoted mark) s
  | .quoted mark, c :: s =>
    c :: blankFrom (if c = mark ∨ c = '\n' then .code else .quoted mark) s
  | .line, c :: s => if c = '\n' then c :: blankFrom .code s else ' ' :: blankFrom .line s
  | .block, '*' :: '/' :: s => ' ' :: ' ' :: blankFrom .code s
  | .block, c :: s => (if c = '\n' then c else ' ') :: blankFrom .block s

/-- Overwrite the comments of a text. -/
def blank (s : List Char) : List Char := blankFrom .code s

theorem length_blankFrom (mode : Mode) (s : List Char) :
    (blankFrom mode s).length = s.length := by
  fun_induction blankFrom mode s <;> simp_all

theorem length_blank (s : List Char) : (blank s).length = s.length := length_blankFrom .code s

theorem count_newline_blankFrom (mode : Mode) (s : List Char) :
    (blankFrom mode s).count '\n' = s.count '\n' := by
  fun_induction blankFrom mode s <;> simp_all [List.count_cons]

theorem count_newline_blank (s : List Char) : (blank s).count '\n' = s.count '\n' :=
  count_newline_blankFrom .code s

end ShaderInterface.Comment
