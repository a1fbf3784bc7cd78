import ShaderInterface.Macro.Token

/-!
# Macro expressions

The value of an expression over literals, names, `+ - * / %`, signs and parentheses. Names are
looked up in a given assignment; operators of one level associate to the left. An expression is
read and evaluated in one pass from left to right, so that the first fault on the way is the one
that is reported. Signs and parentheses nest to a depth of at most `maxNesting`.

`eval names s` is the value of the text `s`. Each reader takes a list of tokens and gives a value
with the tokens that follow.
-/

namespace ShaderInterface.Macro

/-- Why a text has no value, other than for want of a name. -/
inductive Fault where
  | lexical (fault : LexFault)
  | operator (fault : OpFault)
  | emptyExpression
  | nestingTooDeep
  | missingClosing
  | unexpectedToken (token : Token)
  | unexpectedEnd

/-- Why a text has no value. -/
inductive EvalError where
  /-- A name has no value, or none yet. -/
  | unresolved (name : String)
  /-- The text is no expression, or an operation in it has no result. -/
  | invalid (fault : Fault)

/-- The text of a lexical fault. -/
def LexFault.message : LexFault → String
  | unterminatedText => "unterminated string literal"
  | unexpectedCharacter c => "unexpected character '" ++ String.singleton c ++ "'"
  | hexadecimal digits => "invalid hex literal '0x" ++ digits ++ "'"
  | integer digits => "invalid integer literal '" ++ digits ++ "'"

/-- The text of a fault of an operator. -/
def OpFault.message : OpFault → String
  | arithmetic a op b =>
    "integer overflow or division by zero in " ++ toString a ++ " " ++
      String.singleton op.symbol ++ " " ++ toString b
  | text op => "operator '" ++ String.singleton op.symbol ++ "' is not defined for strings"
  | negationOverflow => "integer overflow"
  | negatedText => "cannot negate a string"

/-- The text of a fault. -/
def Fault.message : Fault → String
  | lexical fault => fault.message
  | operator fault => fault.message
  | emptyExpression => "empty expression"
  | nestingTooDeep => "nesting too deep"
  | missingClosing => "missing ')'"
  | unexpectedToken token => "unexpected token " ++ token.describe
  | unexpectedEnd => "unexpected end of expression"

/-- The text of an evaluation error. -/
def EvalError.message : EvalError → String
  | unresolved name => "unresolved name '" ++ name ++ "'"
  | invalid fault => fault.message

/-- A value with the tokens behind the expression it was read from. -/
abbrev Reading := Except EvalError (Literal × List Token)

/-- The assignment of values to names under which expressions are evaluated. -/
abbrev Names := String → Option Literal

/-- How deep signs and parentheses nest at most. -/
def maxNesting : Nat := 64

/-- The value of an operation, or its fault. -/
def ofOperation (x : Except OpFault Literal) : Except EvalError Literal :=
  x.mapError fun fault => .invalid (.operator fault)

/-- Behind a first operand: apply operators of one level, each with the operand that follows it,
from left to right. Every operator takes a token, so `fuel` tokens are enough. -/
def chainFrom (operand : List Token → Reading) (level : Op → Bool) :
    Nat → Literal → List Token → Reading
  | 0, value, tokens => .ok (value, tokens)
  | fuel + 1, value, tokens =>
    match tokens with
    | .op op :: rest =>
      if level op then do
        let (right, rest) ← operand rest
        let value ← ofOperation (value.combine op right)
        chainFrom operand level fuel value rest
      else .ok (value, tokens)
    | _ => .ok (value, tokens)

/-- Operands joined by operators of one level. -/
def chain (operand : List Token → Reading) (level : Op → Bool) (tokens : List Token) : Reading := do
  let (value, rest) ← operand tokens
  chainFrom operand level rest.length value rest

/-- A sum of products of the given operands. -/
def sum (operand : List Token → Reading) (tokens : List Token) : Reading :=
  chain (chain operand fun op => !op.isAdditive) Op.isAdditive tokens

/-- An operand: signs before a literal, a name or an expression in parentheses, with at most
`depth` signs and parentheses around a token. -/
def operand (names : Names) : Nat → List Token → Reading
  | _, [] => .error (.invalid .unexpectedEnd)
  | _, .int n :: rest => .ok (.int n, rest)
  | _, .float x :: rest => .ok (.float x, rest)
  | _, .str s :: rest => .ok (.str s, rest)
  | _, .name n :: rest =>
    match names n with
    | some value => .ok (value, rest)
    | none => .error (.unresolved n)
  | 0, .op .sub :: _ | 0, .op .add :: _ | 0, .opening :: _ => .error (.invalid .nestingTooDeep)
  | depth + 1, .op .sub :: rest => do
    let (value, rest) ← operand names depth rest
    let value ← ofOperation value.negate
    .ok (value, rest)
  | depth + 1, .op .add :: rest => operand names depth rest
  | depth + 1, .opening :: rest => do
    let (value, rest) ← sum (operand names depth) rest
    match rest with
    | .closing :: rest => .ok (value, rest)
    | _ => .error (.invalid .missingClosing)
  | _, token :: _ => .error (.invalid (.unexpectedToken token))

/-- An expression at the front of a list of tokens. -/
def expression (names : Names) (tokens : List Token) : Reading :=
  sum (operand names maxNesting) tokens

/-- The value of a list of tokens that is one expression. -/
def evalTokens (names : Names) (tokens : List Token) : Except EvalError Literal := do
  if tokens.isEmpty then throw (.invalid .emptyExpression)
  let (value, rest) ← expression names tokens
  match rest with
  | [] => .ok value
  | token :: _ => .error (.invalid (.unexpectedToken token))

/-- The value of a text that is one expression. -/
def eval (names : Names) (s : List Char) : Except EvalError Literal :=
  match lex s with
  | .ok tokens => evalTokens names tokens
  | .error fault => .error (.invalid (.lexical fault))

end ShaderInterface.Macro
