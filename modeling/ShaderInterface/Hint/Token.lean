import ShaderInterface.Hint.Value
import ShaderInterface.Number.Reader
import ShaderInterface.Text.Letter
import ShaderInterface.Text.Mark
import ShaderInterface.Text.Diacritic
import ShaderInterface.Text.Digit
import ShaderInterface.Text.Occurrence

/-!
# Tokens of a hint

A hint is written in JSON5. `lex` cuts the text into punctuation, strings, words and
numbers, and leaves out white space and comments. Escapes are read as UTF-16 units first; a high
and a low surrogate that follow each other are then one character, and any other surrogate is an
error (`joinUnits`).
-/

namespace ShaderInterface.Hint

open Number Text

/-- A token of a hint. -/
inductive Token where
  | openBrace
  | closeBrace
  | openBracket
  | closeBracket
  | colon
  | comma
  | str (value : String)
  /-- A word that is spelled without escapes, or with them. -/
  | word (value : String) (escaped : Bool)
  /-- A number with the value it has. -/
  | number (value : Value)

/-- Line feed, carriage return and the two separators of Unicode. -/
def isLineEnd (c : Char) : Bool := c == '\n' || c == '\r' || c == '\u2028' || c == '\u2029'

/-- White space between tokens. -/
def isSpace (c : Char) : Bool :=
  isLineEnd c || c == '\t' || c == '\x0b' || c == '\x0c' || c == ' ' || c == '\u00a0' ||
    c == '\ufeff' || c == '\u1680' || ('\u2000' ≤ c && c ≤ '\u200a') || c == '\u202f' ||
    c == '\u205f' || c == '\u3000'

/-! ## Characters and escapes -/

/-- A character, or a UTF-16 unit given by its number. -/
inductive Part where
  | char (c : Char)
  | unit (n : Nat)
  deriving DecidableEq, Repr

/-- The character that a high and a low surrogate stand for. The offset of the supplementary
planes is set by an inclusive or, so a high surrogate whose bit of that weight is set keeps it. -/
def joinSurrogates (high low : Nat) : Char :=
  Char.ofNat (((high - 0xD800) <<< 10) ||| ((low - 0xDC00) + 0x10000))

/-- The unit is a high surrogate. -/
def isHigh (n : Nat) : Bool := 0xD800 ≤ n && n ≤ 0xDBFF

/-- The unit is a low surrogate. -/
def isLow (n : Nat) : Bool := 0xDC00 ≤ n && n ≤ 0xDFFF

/-- The text of characters and units. -/
def joinUnits : List Part → Option (List Char)
  | [] => some []
  | .char c :: parts => (joinUnits parts).map (c :: ·)
  | .unit high :: .unit low :: parts =>
    if isHigh high then
      if isLow low then (joinUnits parts).map (joinSurrogates high low :: ·) else none
    else if isLow high then none
    else (joinUnits (.unit low :: parts)).map (Char.ofNat high :: ·)
  | .unit n :: parts =>
    if isHigh n || isLow n then none else (joinUnits parts).map (Char.ofNat n :: ·)

/-- The number that the given count of hexadecimal digits at the front of a text has, and what
follows them. -/
def hexDigits? (count : Nat) (s : List Char) : Option (Nat × List Char) :=
  let digits := s.take count
  if digits.length = count ∧ digits.all isHexDigit then some (ofDigits 16 digits, s.drop count)
  else none

/-- The character that an escape of one character stands for; other characters stand for
themselves. -/
def escapedChar (c : Char) : Char :=
  match c with
  | 'b' => '\x08'
  | 'f' => '\x0c'
  | 'n' => '\n'
  | 'r' => '\r'
  | 't' => '\t'
  | 'v' => '\x0b'
  | '0' => '\x00'
  | c => c

/-- What an escape stands for, read behind its backslash, and what follows it. The end of a line
stands for nothing; a digit other than zero is no escape. -/
def readEscape : List Char → Option (Option Part × List Char)
  | [] => none
  | 'x' :: s => (hexDigits? 2 s).map fun (n, rest) => (some (.char (Char.ofNat n)), rest)
  | 'u' :: s => (hexDigits? 4 s).map fun (n, rest) => (some (.unit n), rest)
  | '\r' :: '\n' :: s => some (none, s)
  | c :: s =>
    if isLineEnd c then some (none, s)
    else if '1' ≤ c ∧ c ≤ '9' then none
    else some (some (.char (escapedChar c)), s)

theorem hexDigits?_length_le {count n : Nat} {s rest : List Char}
    (h : hexDigits? count s = some (n, rest)) : rest.length ≤ s.length := by
  simp only [hexDigits?, Option.ite_none_right_eq_some, Option.some.injEq, Prod.mk.injEq] at h
  obtain ⟨-, -, rfl⟩ := h
  simp

theorem readEscape_length_lt {s rest : List Char} {part : Option Part}
    (h : readEscape s = some (part, rest)) : rest.length < s.length := by
  unfold readEscape at h
  split at h
  · cases h
  · obtain ⟨⟨n, r⟩, hr, heq⟩ := Option.map_eq_some_iff.mp h
    cases heq
    exact Nat.lt_succ_of_le (hexDigits?_length_le hr)
  · obtain ⟨⟨n, r⟩, hr, heq⟩ := Option.map_eq_some_iff.mp h
    cases heq
    exact Nat.lt_succ_of_le (hexDigits?_length_le hr)
  · cases h
    simp only [List.length_cons]
    omega
  · split at h
    · cases h; simp
    · split at h
      · cases h
      · cases h; simp

/-- The parts of a string up to its mark, and what follows the mark. -/
def readParts (mark : Char) (s : List Char) : Option (List Part × List Char) :=
  match s with
  | [] => none
  | c :: s =>
    if c = mark then some ([], s)
    else if c = '\\' then
      match h : readEscape s with
      | none => none
      | some (part, rest) =>
        have : rest.length ≤ s.length := Nat.le_of_lt (readEscape_length_lt h)
        (readParts mark rest).map fun (parts, rest) => (part.toList ++ parts, rest)
    else if isLineEnd c then none
    else (readParts mark s).map fun (parts, rest) => (.char c :: parts, rest)
termination_by s.length

theorem readParts_length_lt {mark : Char} {s rest : List Char} {parts : List Part}
    (h : readParts mark s = some (parts, rest)) : rest.length < s.length := by
  fun_induction readParts mark s generalizing parts with
  | case1 => cases h
  | case2 s => cases h; simp
  | case3 => cases h
  | case4 s _ part rest' he hlt ih =>
    obtain ⟨⟨ps, r⟩, hr, heq⟩ := Option.map_eq_some_iff.mp h
    cases heq
    have := ih hr
    simp only [List.length_cons]
    omega
  | case5 => cases h
  | case6 c s _ _ _ ih =>
    obtain ⟨⟨ps, r⟩, hr, heq⟩ := Option.map_eq_some_iff.mp h
    cases heq
    have := ih hr
    simp only [List.length_cons]
    omega

/-! ## Words -/

/-- A character that may begin a word. -/
def isWordStart (c : Char) : Bool := isLetter c || c == '$' || c == '_'

/-- A character that may continue a word. -/
def isWordPart (c : Char) : Bool :=
  isWordStart c || isNonspacingMark c || isDiacritic c || isDecimalDigit c || isConnector c ||
    isJoiner c

/-- The parts of a word that goes on here, and what follows it; an escape of four hexadecimal
digits may stand for any character. -/
def readWordParts : List Char → List Part × List Char
  | '\\' :: 'u' :: a :: b :: c :: d :: s =>
    match hexDigits? 4 [a, b, c, d] with
    | some (n, _) => let (parts, rest) := readWordParts s; (.unit n :: parts, rest)
    | none => ([], '\\' :: 'u' :: a :: b :: c :: d :: s)
  | c :: s =>
    if isWordPart c then let (parts, rest) := readWordParts s; (.char c :: parts, rest)
    else ([], c :: s)
  | [] => ([], [])

theorem readWordParts_length_le (s : List Char) : (readWordParts s).2.length ≤ s.length := by
  fun_induction readWordParts s <;> simp_all <;> omega

/-- A word token, if its parts are characters. -/
def wordToken? (parts : List Part) : Option Token :=
  (joinUnits parts).map fun text =>
    .word (String.ofList text) (parts.any fun | .unit _ => true | .char _ => false)

/-! ## Numbers -/

/-- The value of an integer, if 64 bits hold it. -/
def intValue? (n : Int) : Option Value := if inInt64 n then some (.int n) else none

/-- The value of a float, unless it is infinite. -/
def floatValue? (x : Float) : Option Value :=
  if x.toBits.toNat % 2 ^ 63 = 0x7FF0000000000000 then none else some (.float x)

/-- The digits behind a point. -/
def pointDigits? : List Char → Option (List Char × List Char)
  | '.' :: s => some (s.takeWhile Char.isDigit, s.dropWhile Char.isDigit)
  | _ => none

/-- The sign of an exponent, and what follows it. -/
def exponentSign : List Char → Bool × List Char
  | '-' :: s => (true, s)
  | '+' :: s => (false, s)
  | s => (false, s)

/-- An exponent with its mark. -/
def exponent? : List Char → Option (Int × List Char)
  | [] => none
  | mark :: s =>
    let (negative, digits) := exponentSign s
    if (mark = 'e' ∨ mark = 'E') ∧ digits.head?.any Char.isDigit then
      let n : Int := ofDigits 10 (digits.takeWhile Char.isDigit)
      some (if negative then -n else n, digits.dropWhile Char.isDigit)
    else none

/-- The digits of the whole part of a number: a zero alone, or digits that begin with another. -/
def wholeDigits : List Char → List Char × List Char
  | '0' :: s => (['0'], s)
  | s => (s.takeWhile Char.isDigit, s.dropWhile Char.isDigit)

/-- The value of a decimal number without a sign, negated on demand, and what follows it. With a
point or an exponent it is a float. -/
def decimal? (negative : Bool) (s : List Char) : Option (Value × List Char) :=
  let (whole, s) := wholeDigits s
  let fraction := pointDigits? s
  let s := (fraction.map (·.2)).getD s
  if whole.isEmpty && (fraction.map (·.1)).all (·.isEmpty) then none
  else
    let exponent := exponent? s
    let s := (exponent.map (·.2)).getD s
    let value :=
      if fraction.isNone && exponent.isNone then
        let n : Int := ofDigits 10 whole
        intValue? (if negative then -n else n)
      else
        let x := Numeral.toFloat
          ⟨whole, (fraction.map (·.1)).getD [], (exponent.map (·.1)).getD 0⟩
        floatValue? (if negative then -x else x)
    value.map fun v => (v, s)

/-- The value of hexadecimal digits, if 32 bits hold it. -/
def hexadecimal? (s : List Char) : Option (Value × List Char) :=
  let digits := s.takeWhile isHexDigit
  let n := ofDigits 16 digits
  if digits.isEmpty ∨ 2 ^ 32 ≤ n then none else some (.int n, s.dropWhile isHexDigit)

/-- The value of a number, and what follows it. A hexadecimal number has no sign. The negatives of
the words for infinity and for what is no number have the value null, as the words themselves. -/
def number? : List Char → Option (Value × List Char)
  | '0' :: 'x' :: s | '0' :: 'X' :: s => hexadecimal? s
  | '+' :: '0' :: 'x' :: _ | '+' :: '0' :: 'X' :: _ => none
  | '-' :: '0' :: 'x' :: _ | '-' :: '0' :: 'X' :: _ => none
  | '+' :: s => decimal? false s
  | '-' :: s =>
    match (afterPrefix? "Infinity".toList s).or (afterPrefix? "NaN".toList s) with
    | some rest => some (.null, rest)
    | none => decimal? true s
  | s => decimal? false s

/-! ## Progress of numbers -/

theorem dropWhile_length_le' (p : Char → Bool) (s : List Char) :
    (s.dropWhile p).length ≤ s.length := (s.dropWhile_sublist p).length_le

theorem pointDigits?_length_lt {s digits rest : List Char}
    (h : pointDigits? s = some (digits, rest)) : rest.length < s.length := by
  unfold pointDigits? at h
  split at h
  · cases h
    exact Nat.lt_succ_of_le (dropWhile_length_le' _ _)
  · cases h

theorem exponent?_length_lt {s rest : List Char} {n : Int} (h : exponent? s = some (n, rest)) :
    rest.length < s.length := by
  unfold exponent? at h
  split at h
  · cases h
  · next mark s =>
    have sign : (exponentSign s).2.length ≤ s.length := by fun_cases exponentSign s <;> simp
    have digits := dropWhile_length_le' Char.isDigit (exponentSign s).2
    simp only [Option.ite_none_right_eq_some, Option.some.injEq, Prod.mk.injEq] at h
    obtain ⟨-, -, rfl⟩ := h
    simp only [List.length_cons]
    omega

theorem wholeDigits_length (s : List Char) :
    (wholeDigits s).2.length + (wholeDigits s).1.length = s.length := by
  fun_cases wholeDigits s with
  | case1 s => simp
  | case2 s =>
    have : (s.takeWhile Char.isDigit ++ s.dropWhile Char.isDigit).length = s.length := by
      rw [List.takeWhile_append_dropWhile]
    rw [List.length_append] at this
    dsimp only
    omega

theorem decimal?_length_lt {negative : Bool} {s rest : List Char} {v : Value}
    (h : decimal? negative s = some (v, rest)) : rest.length < s.length := by
  have whole := wholeDigits_length s
  have point : ∀ d r, pointDigits? (wholeDigits s).2 = some (d, r) →
      r.length < (wholeDigits s).2.length := fun _ _ => pointDigits?_length_lt
  simp only [decimal?] at h
  split at h
  · cases h
  · next present =>
    obtain ⟨w, -, heq⟩ := Option.map_eq_some_iff.mp h
    cases heq
    cases hp : pointDigits? (wholeDigits s).2 with
    | none =>
      simp only [hp, Option.map_none, Option.getD_none, Option.all_none, Bool.and_true,
        List.isEmpty_iff] at present ⊢
      have nonempty := List.length_pos_iff.mpr present
      cases he : exponent? (wholeDigits s).2 with
      | none => simp only [Option.map_none, Option.getD_none]; omega
      | some e =>
        have : e.2.length < _ := exponent?_length_lt he
        simp only [Option.map_some, Option.getD_some]; omega
    | some p =>
      have := point p.1 p.2 hp
      simp only [Option.map_some, Option.getD_some]
      cases he : exponent? p.2 with
      | none => simp only [Option.map_none, Option.getD_none]; omega
      | some e =>
        have : e.2.length < _ := exponent?_length_lt he
        simp only [Option.map_some, Option.getD_some]; omega

theorem hexadecimal?_length_le {s rest : List Char} {v : Value}
    (h : hexadecimal? s = some (v, rest)) : rest.length ≤ s.length := by
  simp only [hexadecimal?, Option.ite_none_left_eq_some, Option.some.injEq, Prod.mk.injEq] at h
  obtain ⟨-, -, rfl⟩ := h
  exact dropWhile_length_le' _ _

theorem number?_length_lt {s rest : List Char} {v : Value} (h : number? s = some (v, rest)) :
    rest.length < s.length := by
  unfold number? at h
  split at h
  · have := hexadecimal?_length_le h; simp only [List.length_cons]; omega
  · have := hexadecimal?_length_le h; simp only [List.length_cons]; omega
  · cases h
  · cases h
  · cases h
  · cases h
  · exact Nat.lt_succ_of_lt (decimal?_length_lt h)
  · next s _ _ =>
    split at h
    · next r hr =>
      cases h
      rcases Option.or_eq_some_iff.mp hr with hr | ⟨-, hr⟩
      · simp [afterPrefix?_eq_some_iff.mp hr]; omega
      · simp [afterPrefix?_eq_some_iff.mp hr]; omega
    · exact Nat.lt_succ_of_lt (decimal?_length_lt h)
  · exact decimal?_length_lt h

/-! ## Tokens -/

/-- The text behind the first `*/` that closes a comment. -/
def behindComment? : List Char → Option (List Char)
  | [] => none
  | '*' :: '/' :: s => some s
  | _ :: s => behindComment? s

/-- The token that one character of punctuation is. -/
def punctuation? (c : Char) : Option Token :=
  if c = '\x7b' then some .openBrace
  else if c = '\x7d' then some .closeBrace
  else if c = '[' then some .openBracket
  else if c = ']' then some .closeBracket
  else if c = ':' then some .colon
  else if c = ',' then some .comma
  else none

/-- A word may begin here. -/
def startsWord : List Char → Bool
  | '\\' :: _ => true
  | c :: _ => isWordStart c
  | [] => false

/-- What stands at the front of a text: a token, or white space or a comment, which is none; and
what follows it. -/
def step (c : Char) (s : List Char) : Option (Option Token × List Char) :=
  if isSpace c then some (none, s)
  else match punctuation? c with
  | some token => some (some token, s)
  | none =>
    if c = '"' ∨ c = '\'' then do
      let (parts, rest) ← readParts c s
      let text ← joinUnits parts
      some (some (.str (String.ofList text)), rest)
    else if c = '/' then
      match s with
      | '/' :: s => some (none, s.dropWhile fun d => !isLineEnd d)
      | '*' :: s => (behindComment? s).map fun rest => (none, rest)
      | _ => none
    else if startsWord (c :: s) then
      let (parts, rest) := readWordParts (c :: s)
      if parts.isEmpty then none else (wordToken? parts).map fun token => (some token, rest)
    else (number? (c :: s)).map fun (v, rest) => (some (.number v), rest)

theorem behindComment?_length_lt {s rest : List Char} (h : behindComment? s = some rest) :
    rest.length < s.length := by
  fun_induction behindComment? s with
  | case1 => cases h
  | case2 s => cases h; simp only [List.length_cons]; omega
  | case3 c s _ ih => exact Nat.lt_succ_of_lt (ih h)

theorem readWordParts_length_lt {s : List Char} (h : (readWordParts s).1.isEmpty = false) :
    (readWordParts s).2.length < s.length := by
  fun_cases readWordParts s with
  | case1 a b c d s n _ hn parts rest hs =>
    have := readWordParts_length_le s
    simp only [hs] at this
    simp only [List.length_cons]
    omega
  | case2 a b c d s hn => simp [readWordParts, hn] at h
  | case3 c s _ hc parts rest hs =>
    have := readWordParts_length_le s
    simp only [hs] at this
    simp only [List.length_cons]
    omega
  | case4 c s _ hc => simp [readWordParts, hc] at h
  | case5 => simp [readWordParts] at h

theorem step_length_lt {c : Char} {s rest : List Char} {token : Option Token}
    (h : step c s = some (token, rest)) : rest.length < (c :: s).length := by
  unfold step at h
  split at h
  · cases h; simp
  split at h
  · cases h; simp
  split at h
  · simp only [Option.bind_eq_bind, Option.bind_eq_some_iff, Option.some.injEq,
      Prod.mk.injEq] at h
    obtain ⟨⟨parts, r⟩, hr, text, -, -, rfl⟩ := h
    exact Nat.lt_succ_of_lt (readParts_length_lt hr)
  split at h
  · split at h
    · cases h
      have := dropWhile_length_le' (fun d => !isLineEnd d)
      simp only [List.length_cons]
      exact Nat.lt_succ_of_le (Nat.le_succ_of_le (this _))
    · obtain ⟨r, hr, heq⟩ := Option.map_eq_some_iff.mp h
      cases heq
      have := behindComment?_length_lt hr
      simp only [List.length_cons]
      omega
    · cases h
  split at h
  · simp only at h
    split at h
    · cases h
    · next present =>
      obtain ⟨t, -, heq⟩ := Option.map_eq_some_iff.mp h
      cases heq
      exact readWordParts_length_lt (by simpa using present)
  · obtain ⟨⟨v, r⟩, hr, heq⟩ := Option.map_eq_some_iff.mp h
    cases heq
    exact number?_length_lt hr

/-- The tokens of a text. -/
def lex (s : List Char) : Option (List Token) :=
  match s with
  | [] => some []
  | c :: s =>
    match h : step c s with
    | none => none
    | some (token, rest) =>
      have : rest.length ≤ s.length := Nat.le_of_lt_succ (step_length_lt h)
      (lex rest).map (token.toList ++ ·)
termination_by s.length

end ShaderInterface.Hint
