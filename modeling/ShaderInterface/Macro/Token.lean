import ShaderInterface.Macro.Literal
import ShaderInterface.Text.Blank
import ShaderInterface.Text.Identifier
import ShaderInterface.Text.Quoted

/-!
# Tokens of a macro value

`lex` cuts the text of a macro value into numbers, texts, names, operators and parentheses, and
leaves blanks out. A token is the longest that can be read; what cannot begin a token, and a
number that does not fit, is a fault. Every step leaves a shorter text (`readToken_length_lt`).
-/

namespace ShaderInterface.Macro

open Number Text

/-- A token of a macro value. -/
inductive Token where
  | int (value : Int)
  | float (value : Float)
  | str (value : String)
  | name (spelling : String)
  | op (op : Op)
  | opening
  | closing

/-- How a message shows a token. -/
def Token.describe : Token → String
  | int n => "Int(" ++ toString n ++ ")"
  | float x => "Float(" ++ Literal.layout.write x ++ ")"
  | str s => "Str(" ++ quote s ++ ")"
  | name s => "Ident(" ++ quote s ++ ")"
  | op o => "Op('" ++ String.singleton o.symbol ++ "')"
  | opening => "Open"
  | closing => "Close"

/-- Why a text does not consist of tokens. -/
inductive LexFault where
  | unterminatedText
  | unexpectedCharacter (c : Char)
  /-- No digits, or more than 63 bits of them. -/
  | hexadecimal (digits : String)
  /-- More than 63 bits. -/
  | integer (digits : String)
  deriving DecidableEq, Repr

/-- The characters of a quoted text up to its mark, and what follows the mark. A backslash stands
for the character after it. -/
def readQuoted (mark : Char) : List Char → Option (List Char × List Char)
  | [] | ['\\'] => none
  | '\\' :: c :: s => (readQuoted mark s).map fun (text, rest) => (c :: text, rest)
  | c :: s =>
    if c = mark then some ([], s)
    else (readQuoted mark s).map fun (text, rest) => (c :: text, rest)

/-- An integer token, if 64 bits hold the integer. -/
def Token.ofNat? (n : Nat) : Option Token := if n < 2 ^ 63 then some (.int n) else none

/-- The text without its first character if that is one of the two. -/
def dropSuffix (lower upper : Char) : List Char → List Char
  | [] => []
  | c :: s => if c = lower ∨ c = upper then s else c :: s

/-- The text begins with one of the two characters. -/
def startsWith (lower upper : Char) (s : List Char) : Bool :=
  s.head?.any fun c => c == lower || c == upper

/-- A hexadecimal integer, read behind its `0x`. -/
def readHexadecimal (s : List Char) : Except LexFault (Token × List Char) :=
  let digits := s.takeWhile isHexDigit
  match if digits.isEmpty then none else Token.ofNat? (ofDigits 16 digits) with
  | some token => .ok (token, dropSuffix 'u' 'U' (s.dropWhile isHexDigit))
  | none => .error (.hexadecimal (String.ofList digits))

/-- The digits behind a point, if a point comes first, and what follows them. -/
def readFraction : List Char → Option (List Char) × List Char
  | '.' :: s => (some (s.takeWhile Char.isDigit), s.dropWhile Char.isDigit)
  | s => (none, s)

/-- The sign at the front of an exponent: whether it is negative, and what follows. -/
def readSign : List Char → Bool × List Char
  | '-' :: s => (true, s)
  | '+' :: s => (false, s)
  | s => (false, s)

/-- The exponent, if an exponent mark, possibly a sign, and a digit come first, and what follows
it. -/
def readExponent : List Char → Option Int × List Char
  | [] => (none, [])
  | mark :: s =>
    let (negative, digits) := readSign s
    if (mark = 'e' ∨ mark = 'E') ∧ digits.head?.any Char.isDigit then
      let n : Int := ofDigits 10 (digits.takeWhile Char.isDigit)
      (some (if negative then -n else n), digits.dropWhile Char.isDigit)
    else (none, mark :: s)

/-- A decimal number: a float when it has a point, an exponent or the suffix `f`, else an integer,
which may have the suffix `u`. -/
def readDecimal (s : List Char) : Except LexFault (Token × List Char) :=
  let whole := s.takeWhile Char.isDigit
  let (fraction, s) := readFraction (s.dropWhile Char.isDigit)
  let (exponent, s) := readExponent s
  let float := Numeral.toFloat ⟨whole, fraction.getD [], exponent.getD 0⟩
  if startsWith 'f' 'F' s then .ok (.float float, dropSuffix 'f' 'F' s)
  else if fraction.isSome || exponent.isSome then .ok (.float float, s)
  else match Token.ofNat? (ofDigits 10 whole) with
    | some token => .ok (token, dropSuffix 'u' 'U' s)
    | none => .error (.integer (String.ofList whole))

/-- A number can be read here: a digit, or a point and a digit. -/
def startsNumber : List Char → Bool
  | '.' :: c :: _ => c.isDigit
  | c :: _ => c.isDigit
  | [] => false

/-- A number at the front of a text. -/
def readNumber : List Char → Except LexFault (Token × List Char)
  | '0' :: 'x' :: s | '0' :: 'X' :: s => readHexadecimal s
  | s => readDecimal s

/-- A token that is one character. -/
def Token.ofChar? (c : Char) : Option Token :=
  if c = '(' then some .opening
  else if c = ')' then some .closing
  else (Op.ofChar? c).map .op

/-- The token at the front of a text that does not begin with a blank, and what follows it. -/
def readToken (c : Char) (s : List Char) : Except LexFault (Token × List Char) :=
  if startsNumber (c :: s) then readNumber (c :: s)
  else if c = '"' ∨ c = '\'' then
    match readQuoted c s with
    | some (text, rest) => .ok (.str (String.ofList text), rest)
    | none => .error .unterminatedText
  else match takeIdentifier (c :: s) with
    | some (name, rest) => .ok (.name (String.ofList name), rest)
    | none => match Token.ofChar? c with
      | some token => .ok (token, s)
      | none => .error (.unexpectedCharacter c)

/-! ## Progress -/

theorem readQuoted_length_lt {mark : Char} {s text rest : List Char}
    (h : readQuoted mark s = some (text, rest)) : rest.length < s.length := by
  fun_induction readQuoted mark s generalizing text with
  | case1 | case2 => simp at h
  | case3 c s ih =>
    obtain ⟨⟨t, r⟩, ht, heq⟩ := Option.map_eq_some_iff.mp h
    cases heq
    have := ih ht
    simp only [List.length_cons]
    omega
  | case4 s =>
    cases h
    simp
  | case5 c s _ _ _ ih =>
    obtain ⟨⟨t, r⟩, ht, heq⟩ := Option.map_eq_some_iff.mp h
    cases heq
    have := ih ht
    simp only [List.length_cons]
    omega

theorem dropSuffix_length_le (lower upper : Char) (s : List Char) :
    (dropSuffix lower upper s).length ≤ s.length := by
  cases s with
  | nil => simp [dropSuffix]
  | cons c s => by_cases h : c = lower ∨ c = upper <;> simp [dropSuffix, h]

theorem dropWhile_length_le (p : Char → Bool) (s : List Char) :
    (s.dropWhile p).length ≤ s.length := (s.dropWhile_sublist p).length_le

theorem readHexadecimal_length_le {s rest : List Char} {token : Token}
    (h : readHexadecimal s = .ok (token, rest)) : rest.length ≤ s.length := by
  simp only [readHexadecimal] at h
  split at h
  · cases h
    exact Nat.le_trans (dropSuffix_length_le _ _ _) (dropWhile_length_le _ _)
  · cases h

theorem readFraction_length_le (s : List Char) : (readFraction s).2.length ≤ s.length := by
  fun_cases readFraction s with
  | case1 s => exact Nat.le_succ_of_le (dropWhile_length_le _ _)
  | case2 => exact Nat.le_refl _

theorem readSign_length_le (s : List Char) : (readSign s).2.length ≤ s.length := by
  fun_cases readSign s <;> simp

theorem readExponent_length_le (s : List Char) : (readExponent s).2.length ≤ s.length := by
  fun_cases readExponent s with
  | case1 => simp
  | case2 mark s negative digits heq =>
    have := readSign_length_le s
    rw [heq] at this
    exact Nat.le_succ_of_le (Nat.le_trans (dropWhile_length_le _ _) this)
  | case3 => simp

theorem readDecimal_length_lt {s rest : List Char} {token : Token}
    (start : startsNumber s = true) (h : readDecimal s = .ok (token, rest)) :
    rest.length < s.length := by
  have number : (readFraction (s.dropWhile Char.isDigit)).2.length < s.length := by
    cases s with
    | nil => simp [startsNumber] at start
    | cons c s =>
      by_cases digit : c.isDigit = true
      · have := readFraction_length_le ((c :: s).dropWhile Char.isDigit)
        have := dropWhile_length_le Char.isDigit s
        simp only [List.dropWhile_cons_of_pos digit, List.length_cons] at *
        omega
      · have point : c = '.' := by
          unfold startsNumber at start
          split at start <;> simp_all
        subst point
        have := dropWhile_length_le Char.isDigit s
        simp only [List.dropWhile_cons_of_neg digit, readFraction, List.length_cons]
        omega
  have exponent := readExponent_length_le (readFraction (s.dropWhile Char.isDigit)).2
  have float := dropSuffix_length_le 'f' 'F'
    (readExponent (readFraction (s.dropWhile Char.isDigit)).2).2
  have int := dropSuffix_length_le 'u' 'U'
    (readExponent (readFraction (s.dropWhile Char.isDigit)).2).2
  simp only [readDecimal] at h
  split at h
  · cases h; omega
  · split at h
    · cases h; omega
    · split at h
      · cases h; omega
      · cases h

theorem readNumber_length_lt {s rest : List Char} {token : Token}
    (start : startsNumber s = true) (h : readNumber s = .ok (token, rest)) :
    rest.length < s.length := by
  unfold readNumber at h
  split at h
  · have := readHexadecimal_length_le h
    simp only [List.length_cons]; omega
  · have := readHexadecimal_length_le h
    simp only [List.length_cons]; omega
  · exact readDecimal_length_lt start h

theorem readToken_length_lt {c : Char} {s rest : List Char} {token : Token}
    (h : readToken c s = .ok (token, rest)) : rest.length < (c :: s).length := by
  unfold readToken at h
  split at h
  case isTrue start => exact readNumber_length_lt start h
  split at h
  · split at h
    case h_1 text rest' hq =>
      cases h
      exact Nat.lt_succ_of_lt (readQuoted_length_lt hq)
    case h_2 => cases h
  · split at h
    case h_1 name rest' hn =>
      cases h
      exact takeIdentifier_length_lt hn
    case h_2 =>
      split at h
      · cases h; simp
      · cases h

/-! ## The tokens of a text -/

/-- The tokens of a text, or the first fault. -/
def lex (s : List Char) : Except LexFault (List Token) :=
  match s with
  | [] => .ok []
  | c :: s =>
    if isBlank c then lex s
    else match h : readToken c s with
      | .error fault => .error fault
      | .ok (token, rest) =>
        have : rest.length ≤ s.length := Nat.le_of_lt_succ (readToken_length_lt h)
        (lex rest).map (token :: ·)
termination_by s.length

end ShaderInterface.Macro
