import ShaderInterface.Hint.Token

/-!
# Reading a value

A value is a scalar token, an array of values or an object of keys with values. Items and fields
are separated by commas, and one comma may follow the last of them. `Value.read` takes a text that
is one value and nothing else; `json5` is the parser that it makes.

The readers take a list of tokens and give a value with the tokens that follow it. Each step into
an array or object, and each step to a further item, spends one unit of fuel; a token allows for
two of them (`Value.ofTokens`).
-/

namespace ShaderInterface.Hint

/-- The value that a word stands for. Neither infinity nor what is no number can be kept, and both
are null. -/
def wordValue? : String → Option Value
  | "null" => some .null
  | "true" => some (.bool true)
  | "false" => some (.bool false)
  | "Infinity" => some .null
  | "NaN" => some .null
  | _ => none

/-- The key that a token is: a string or any word. -/
def Token.key? : Token → Option String
  | .str s => some s
  | .word w _ => some w
  | _ => none

/-- The value that a single token is. A word that is spelled with escapes is no value. -/
def Token.scalar? : Token → Option Value
  | .str s => some (.str s)
  | .number v => some v
  | .word w false => wordValue? w
  | _ => none

mutual

/-- A value at the front of the tokens. -/
def readValue : Nat → List Token → Option (Value × List Token)
  | fuel + 1, .openBracket :: rest =>
    match rest with
    | .closeBracket :: rest => some (.array [], rest)
    | _ => (readItems fuel rest).map fun (items, rest) => (.array items, rest)
  | fuel + 1, .openBrace :: rest =>
    match rest with
    | .closeBrace :: rest => some (.object [], rest)
    | _ => (readFields fuel rest).map fun (fields, rest) => (.object (Fields.ofPairs fields), rest)
  | _ + 1, token :: rest => token.scalar?.map fun v => (v, rest)
  | _, _ => none

/-- The items of an array from the first or a further one on, with the closing bracket. -/
def readItems : Nat → List Token → Option (List Value × List Token)
  | 0, _ => none
  | fuel + 1, tokens =>
    match readValue fuel tokens with
    | some (v, .closeBracket :: rest) => some ([v], rest)
    | some (v, .comma :: .closeBracket :: rest) => some ([v], rest)
    | some (v, .comma :: rest) => (readItems fuel rest).map fun (vs, rest) => (v :: vs, rest)
    | _ => none

/-- The fields of an object from the first or a further one on, with the closing brace. -/
def readFields : Nat → List Token → Option (List (String × Value) × List Token)
  | fuel + 1, token :: .colon :: rest =>
    match token.key?, readValue fuel rest with
    | some key, some (v, .closeBrace :: rest) => some ([(key, v)], rest)
    | some key, some (v, .comma :: .closeBrace :: rest) => some ([(key, v)], rest)
    | some key, some (v, .comma :: rest) =>
      (readFields fuel rest).map fun (fields, rest) => ((key, v) :: fields, rest)
    | _, _ => none
  | _, _ => none

end

/-- The value that a list of tokens is. -/
def Value.ofTokens (tokens : List Token) : Option Value :=
  match readValue (2 * tokens.length) tokens with
  | some (v, []) => some v
  | _ => none

/-- The value that a text is. -/
def Value.read (s : List Char) : Option Value := (lex s).bind Value.ofTokens

/-- The parser of JSON5 texts, which says of a text that is no value what `reason` says of it. -/
def json5 (reason : List Char → String) : Parser := fun s =>
  match Value.read s with
  | some v => .ok v
  | none => .error (reason s)

/-- The parser of JSON5 texts that gives no reason. -/
def terse : Parser := json5 fun _ => ""

theorem json5_eq_ok_iff {reason : List Char → String} {s : List Char} {v : Value} :
    json5 reason s = .ok v ↔ Value.read s = some v := by
  unfold json5
  cases Value.read s <;> simp

end ShaderInterface.Hint
