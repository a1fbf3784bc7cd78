import Mathlib.Data.List.Chain
import Mathlib.Data.List.TakeWhile
import ShaderInterface.Macro.Token
import ShaderInterface.Proofs.Text.Identifier

/-!
# How tokens are spelled

Where every number is an integer and no two operands touch, a text consists of blanks, of operators
and parentheses, and of words that are each an identifier or an integer (`Spells`). These are the
texts from which the tokens are read (`lex_eq_ok_of_spells`, `spells_of_lex`), and being made of
pieces they can be edited piece by piece.
-/

namespace ShaderInterface.Macro

open Number Text

variable {c : Char} {s w rest : List Char} {n : Nat} {token : Token} {tokens : List Token}

/-! ## Spellings -/

/-- The suffixes of an integer. -/
def integerSuffixes : List (List Char) := [[], ['u'], ['U']]

/-- `IntegerText w n`: the word writes the number in decimal or hexadecimal digits. -/
inductive IntegerText : List Char → Nat → Prop where
  | decimal {digits suffix : List Char} (ne : digits ≠ []) (all : ∀ c ∈ digits, c.isDigit)
      (hs : suffix ∈ integerSuffixes) : IntegerText (digits ++ suffix) (ofDigits 10 digits)
  | hexadecimal {x : Char} {digits suffix : List Char} (hx : x = 'x' ∨ x = 'X') (ne : digits ≠ [])
      (all : ∀ c ∈ digits, isHexDigit c) (hs : suffix ∈ integerSuffixes) :
      IntegerText ('0' :: x :: (digits ++ suffix)) (ofDigits 16 digits)

/-- A word that is one operand. -/
inductive OperandText : List Char → Token → Prop where
  | name {w : List Char} (h : isIdentifier w) : OperandText w (.name (String.ofList w))
  | integer {w : List Char} {n : Nat} (h : IntegerText w n) (fits : n < 2 ^ 63) :
      OperandText w (.int n)

/-- `Spells s tokens`: the text consists of blanks, of symbols and of words, and the symbols and
words are the tokens. -/
inductive Spells : List Char → List Token → Prop where
  | nil : Spells [] []
  | blank {c : Char} {s : List Char} {tokens : List Token} (h : isBlank c)
      (more : Spells s tokens) : Spells (c :: s) tokens
  | symbol {c : Char} {s : List Char} {token : Token} {tokens : List Token}
      (h : Token.ofChar? c = some token) (more : Spells s tokens) :
      Spells (c :: s) (token :: tokens)
  | word {w s : List Char} {token : Token} {tokens : List Token} (h : OperandText w token)
      (ends : isBoundary s.head?) (more : Spells s tokens) : Spells (w ++ s) (token :: tokens)

/-! ## Characters -/

/-- The characters of operators and parentheses. -/
def symbols : List Char := ['(', ')', '+', '-', '*', '/', '%']

theorem mem_symbols_of_ofChar? (h : Token.ofChar? c = some token) : c ∈ symbols := by
  unfold Token.ofChar? Op.ofChar? at h
  split at h
  · simp [symbols, *]
  split at h
  · simp [symbols, *]
  split at h <;> simp_all [symbols]

theorem not_isWordChar_of_mem_symbols (h : c ∈ symbols) : isWordChar c = false := by
  have none : symbols.all (!isWordChar ·) := by decide +kernel
  simpa using List.all_eq_true.mp none c h

/-- A symbol is no blank, and no number, text or identifier begins with it. -/
theorem plain_of_mem_symbols (h : c ∈ symbols) :
    isBlank c = false ∧ c.isDigit = false ∧ c ≠ '.' ∧ c ≠ '"' ∧ c ≠ '\'' ∧
      isIdentStart c = false := by
  simp only [symbols, List.mem_cons, List.not_mem_nil, or_false] at h
  rcases h with rfl | rfl | rfl | rfl | rfl | rfl | rfl <;> decide

theorem isWordChar_of_isHexDigit (h : isHexDigit c) : isWordChar c := by
  apply isWordChar_of_isAlphanum
  unfold isHexDigit hexValue? at h
  split at h
  · next digit => exact Bool.or_eq_true_iff.mpr (.inr digit)
  split at h
  · next lower =>
    have letter : c.isLower := Bool.and_eq_true_iff.mpr
      ⟨decide_eq_true lower.1, decide_eq_true (UInt32.le_trans lower.2 (by decide))⟩
    exact Bool.or_eq_true_iff.mpr (.inl (Bool.or_eq_true_iff.mpr (.inr letter)))
  split at h
  · next upper =>
    have letter : c.isUpper := decide_eq_true ⟨upper.1, UInt32.le_trans upper.2 (by decide)⟩
    exact Bool.or_eq_true_iff.mpr (.inl (Bool.or_eq_true_iff.mpr (.inl letter)))
  · cases h

theorem isHexDigit_of_isDigit (h : c.isDigit) : isHexDigit c := by
  rw [isHexDigit, hexValue?, if_pos h]
  rfl

theorem ne_of_isHexDigit {d : Char} (h : isHexDigit c = false) (hd : isHexDigit d) : c ≠ d := by
  rintro rfl
  rw [hd] at h
  cases h

theorem isWordChar_of_mem_integerSuffixes {suffix : List Char} (hs : suffix ∈ integerSuffixes) :
    ∀ c ∈ suffix, isWordChar c := by
  have all : integerSuffixes.all (·.all Char.isAlphanum) := by decide
  exact fun c hc =>
    isWordChar_of_isAlphanum (List.all_eq_true.mp (List.all_eq_true.mp all suffix hs) c hc)

/-- A word of digits. -/
theorem IntegerText.isWordChar (h : IntegerText w n) : ∀ c ∈ w, isWordChar c := by
  cases h with
  | decimal ne all hs =>
    intro c hc
    rcases List.mem_append.mp hc with hc | hc
    · exact isWordChar_of_isAlphanum (by simp [Char.isAlphanum, all c hc])
    · exact isWordChar_of_mem_integerSuffixes hs c hc
  | hexadecimal hx ne all hs =>
    intro c hc
    rcases List.mem_cons.mp hc with rfl | hc
    · exact isWordChar_of_isAlphanum rfl
    rcases List.mem_cons.mp hc with rfl | hc
    · rcases hx with rfl | rfl <;> exact isWordChar_of_isAlphanum rfl
    rcases List.mem_append.mp hc with hc | hc
    · exact isWordChar_of_isHexDigit (all c hc)
    · exact isWordChar_of_mem_integerSuffixes hs c hc

/-- An integer begins with a digit. -/
theorem IntegerText.exists_digit (h : IntegerText w n) : ∃ c w', w = c :: w' ∧ c.isDigit := by
  cases h with
  | @decimal digits suffix ne all hs =>
    cases digits with
    | nil => exact absurd rfl ne
    | cons c digits => exact ⟨c, _, rfl, all c List.mem_cons_self⟩
  | hexadecimal => exact ⟨'0', _, rfl, rfl⟩

theorem OperandText.ne_nil (h : OperandText w token) : w ≠ [] := by
  rintro rfl
  cases h with
  | name h => cases h
  | integer h =>
    obtain ⟨_, _, heq, -⟩ := h.exists_digit
    cases heq

theorem OperandText.isWordChar (h : OperandText w token) : ∀ c ∈ w, isWordChar c := by
  cases h with
  | name h => exact fun c hc => isWordChar_of_isIdentChar (isIdentChar_of_mem h c hc)
  | integer h => exact h.isWordChar

/-! ## Integers -/

/-- Neither a word nor a number goes on at the front of the text. -/
def EndsOperand (s : List Char) : Prop := ∀ c ∈ s.head?, isWordChar c = false ∧ c ≠ '.'

/-- Behind the digits of an integer neither digits, nor a point or an exponent follow. -/
theorem EndsOperand.behind_digits {suffix : List Char} (ends : EndsOperand s)
    (hs : suffix ∈ integerSuffixes) :
    ∀ c ∈ (suffix ++ s).head?, isHexDigit c = false ∧ c ≠ '.' ∧ c ≠ 'x' ∧ c ≠ 'X' := by
  simp only [integerSuffixes, List.mem_cons, List.not_mem_nil, or_false] at hs
  rcases hs with rfl | rfl | rfl
  · intro c hc
    obtain ⟨noWord, noPoint⟩ := ends c hc
    refine ⟨?_, noPoint, ?_, ?_⟩
    · by_contra hex
      rw [isWordChar_of_isHexDigit (by simpa using hex)] at noWord
      cases noWord
    · rintro rfl
      cases (isWordChar_of_isAlphanum rfl).symm.trans noWord
    · rintro rfl
      cases (isWordChar_of_isAlphanum rfl).symm.trans noWord
  · rintro c ⟨⟩
    decide
  · rintro c ⟨⟩
    decide

theorem dropSuffix_append {suffix : List Char} (ends : EndsOperand s)
    (hs : suffix ∈ integerSuffixes) : dropSuffix 'u' 'U' (suffix ++ s) = s := by
  simp only [integerSuffixes, List.mem_cons, List.not_mem_nil, or_false] at hs
  rcases hs with rfl | rfl | rfl
  · cases s with
    | nil => rfl
    | cons c s =>
      have noWord := (ends c rfl).1
      refine if_neg ?_
      rintro (rfl | rfl) <;> cases (isWordChar_of_isAlphanum rfl).symm.trans noWord
  · rfl
  · rfl

theorem exists_suffix (s : List Char) :
    ∃ suffix ∈ integerSuffixes, s = suffix ++ dropSuffix 'u' 'U' s := by
  cases s with
  | nil => exact ⟨[], by simp [integerSuffixes], rfl⟩
  | cons c s =>
    by_cases h : c = 'u' ∨ c = 'U'
    · refine ⟨[c], ?_, by simp [dropSuffix, h]⟩
      rcases h with rfl | rfl <;> simp [integerSuffixes]
    · exact ⟨[], by simp [integerSuffixes], by simp [dropSuffix, h]⟩

theorem readFraction_of_no_point (h : ∀ c ∈ s.head?, c ≠ '.') : readFraction s = (none, s) := by
  fun_cases readFraction s with
  | case1 s => exact absurd rfl (h '.' rfl)
  | case2 => rfl

theorem readExponent_of_no_mark (h : ∀ c ∈ s.head?, c ≠ 'e' ∧ c ≠ 'E') :
    readExponent s = (none, s) := by
  fun_cases readExponent s with
  | case1 => rfl
  | case2 mark s negative digits heq cond =>
    obtain ⟨ne, ne'⟩ := h mark rfl
    exact absurd cond.1 (not_or.mpr ⟨ne, ne'⟩)
  | case3 => rfl

theorem readFraction_eq_none (h : (readFraction s).1 = none) : (readFraction s).2 = s := by
  fun_cases readFraction s with
  | case1 s => cases h
  | case2 => rfl

theorem readExponent_eq_none (h : (readExponent s).1 = none) : (readExponent s).2 = s := by
  rw [readExponent.eq_def] at h ⊢
  split at h
  · rfl
  · dsimp only at h ⊢
    split at h
    · cases h
    · next cond => rw [if_neg cond]

theorem startsWith_eq_false {lower upper : Char} (h : ∀ c ∈ s.head?, c ≠ lower ∧ c ≠ upper) :
    startsWith lower upper s = false := by
  cases s with
  | nil => rfl
  | cons c s =>
    obtain ⟨ne, ne'⟩ := h c rfl
    simp [startsWith, ne, ne']

theorem ofNat?_of_lt (fits : n < 2 ^ 63) : Token.ofNat? n = some (.int n) := if_pos fits

/-- Digits are decimal unless the mark of hexadecimal digits stands behind the first. -/
theorem readNumber_of_digits {digits : List Char} (ne : digits ≠ [])
    (all : ∀ c ∈ digits, c.isDigit) (noMark : ∀ c ∈ s.head?, c ≠ 'x' ∧ c ≠ 'X') :
    readNumber (digits ++ s) = readDecimal (digits ++ s) := by
  have second : ∀ first c more, digits ++ s = first :: c :: more → c ≠ 'x' ∧ c ≠ 'X' := by
    intro first c more heq
    cases digits with
    | nil => exact absurd rfl ne
    | cons d digits =>
      cases digits with
      | nil =>
        cases heq
        exact noMark c rfl
      | cons e digits =>
        cases heq
        have digit := all c (List.mem_cons_of_mem _ List.mem_cons_self)
        constructor
        · rintro rfl
          exact absurd digit (by decide)
        · rintro rfl
          exact absurd digit (by decide)
  unfold readNumber
  split
  · next heq => exact absurd rfl (second _ _ _ heq).1
  · next heq => exact absurd rfl (second _ _ _ heq).2
  · rfl

/-- An integer is read back from in front of what ends it. -/
theorem readNumber_append (h : IntegerText w n) (fits : n < 2 ^ 63) (ends : EndsOperand s) :
    readNumber (w ++ s) = .ok (.int n, s) := by
  cases h with
  | @hexadecimal x digits suffix hx ne all hs =>
    have stop := fun c hc => (ends.behind_digits hs c hc).1
    have read : readHexadecimal (digits ++ (suffix ++ s)) = .ok (.int (ofDigits 16 digits), s) := by
      rw [readHexadecimal, takeWhile_run all stop, dropWhile_run all stop,
        dropSuffix_append ends hs, if_neg (by simpa using ne), ofNat?_of_lt fits]
    rw [List.cons_append, List.cons_append, List.append_assoc]
    rcases hx with rfl | rfl <;> exact read
  | @decimal digits suffix ne all hs =>
    have behind := ends.behind_digits hs
    have other : ∀ d, isHexDigit d → ∀ c ∈ (suffix ++ s).head?, c ≠ d := fun d hd c hc =>
      ne_of_isHexDigit (behind c hc).1 hd
    have noDigit : ∀ c ∈ (suffix ++ s).head?, c.isDigit = false := fun c hc => by
      by_contra digit
      exact other c (isHexDigit_of_isDigit (by simpa using digit)) c hc rfl
    have noExponent : ∀ c ∈ (suffix ++ s).head?, c ≠ 'e' ∧ c ≠ 'E' := fun c hc =>
      ⟨other 'e' rfl c hc, other 'E' rfl c hc⟩
    have noFloat : ∀ c ∈ (suffix ++ s).head?, c ≠ 'f' ∧ c ≠ 'F' := fun c hc =>
      ⟨other 'f' rfl c hc, other 'F' rfl c hc⟩
    rw [List.append_assoc, readNumber_of_digits ne all fun c hc => (behind c hc).2.2, readDecimal,
      takeWhile_run all noDigit, dropWhile_run all noDigit]
    dsimp only
    rw [readFraction_of_no_point fun c hc => (behind c hc).2.1]
    dsimp only
    rw [readExponent_of_no_mark noExponent]
    dsimp only
    rw [startsWith_eq_false noFloat, ofNat?_of_lt fits, dropSuffix_append ends hs]
    rfl

theorem ofNat?_eq_some (h : Token.ofNat? n = some token) : n < 2 ^ 63 ∧ token = .int n := by
  obtain ⟨fits, h⟩ := Option.ite_none_right_eq_some.mp h
  exact ⟨fits, (Option.some.inj h).symm⟩

/-- A number that does not begin with a point begins with a digit. -/
theorem takeWhile_ne_nil_of_startsNumber (start : startsNumber s)
    (noPoint : (readFraction (s.dropWhile Char.isDigit)).1 = none) :
    s.takeWhile Char.isDigit ≠ [] := by
  intro nil
  cases s with
  | nil => cases start
  | cons c s =>
    cases digit : c.isDigit with
    | true =>
      rw [List.takeWhile_cons_of_pos digit] at nil
      cases nil
    | false =>
      rw [List.dropWhile_cons_of_neg (by simp [digit])] at noPoint
      unfold startsNumber at start
      split at start
      · next heq =>
        cases heq
        cases noPoint
      · next heq =>
        cases heq
        rw [digit] at start
        cases start
      · cases start

/-- What is read as a decimal number is an integer or gives a float. -/
theorem exists_integerText_of_readDecimal (start : startsNumber s)
    (h : readDecimal s = .ok (token, rest)) :
    (∃ w n, s = w ++ rest ∧ IntegerText w n ∧ n < 2 ^ 63 ∧ token = .int n) ∨
      ∃ x, token = .float x := by
  rw [readDecimal] at h
  dsimp only at h
  split at h
  · cases h
    exact .inr ⟨_, rfl⟩
  split at h
  · cases h
    exact .inr ⟨_, rfl⟩
  next noFloat =>
    split at h
    · next token' given =>
      cases h
      obtain ⟨noFraction, noExponent⟩ : (readFraction (s.dropWhile Char.isDigit)).1 = none ∧
          (readExponent (readFraction (s.dropWhile Char.isDigit)).2).1 = none := by
        simpa using noFloat
      obtain ⟨fits, rfl⟩ := ofNat?_eq_some given
      have ne := takeWhile_ne_nil_of_startsNumber start noFraction
      rw [readExponent_eq_none noExponent, readFraction_eq_none noFraction]
      obtain ⟨suffix, hs, heq⟩ := exists_suffix (s.dropWhile Char.isDigit)
      refine .inl ⟨_, _, ?_, .decimal ne (fun c hc => List.mem_takeWhile_imp hc) hs, fits, rfl⟩
      rw [List.append_assoc, ← heq, List.takeWhile_append_dropWhile]
    · cases h

theorem exists_integerText_of_readHexadecimal {x : Char} (hx : x = 'x' ∨ x = 'X')
    (h : readHexadecimal s = .ok (token, rest)) :
    ∃ w n, '0' :: x :: s = w ++ rest ∧ IntegerText w n ∧ n < 2 ^ 63 ∧ token = .int n := by
  rw [readHexadecimal] at h
  split at h
  · next token' given =>
    cases h
    obtain ⟨ne, given⟩ := Option.ite_none_left_eq_some.mp given
    obtain ⟨fits, rfl⟩ := ofNat?_eq_some given
    obtain ⟨suffix, hs, heq⟩ := exists_suffix (s.dropWhile isHexDigit)
    refine ⟨_, _, ?_, .hexadecimal hx (by simpa using ne)
      (fun c hc => List.mem_takeWhile_imp hc) hs, fits, rfl⟩
    rw [List.cons_append, List.cons_append, List.append_assoc, ← heq,
      List.takeWhile_append_dropWhile]
  · cases h

/-- What is read as a number is an integer or gives a float. -/
theorem exists_integerText_of_readNumber (start : startsNumber s)
    (h : readNumber s = .ok (token, rest)) :
    (∃ w n, s = w ++ rest ∧ IntegerText w n ∧ n < 2 ^ 63 ∧ token = .int n) ∨
      ∃ x, token = .float x := by
  unfold readNumber at h
  split at h
  · exact .inl (exists_integerText_of_readHexadecimal (.inl rfl) h)
  · exact .inl (exists_integerText_of_readHexadecimal (.inr rfl) h)
  · exact exists_integerText_of_readDecimal start h

/-! ## Texts of tokens -/

theorem lex_cons_of_isBlank (h : isBlank c) (s : List Char) : lex (c :: s) = lex s := by
  rw [lex, if_pos h]

theorem lex_cons_of_readToken (noBlank : isBlank c = false)
    (h : readToken c s = .ok (token, rest)) :
    lex (c :: s) = (lex rest).map (token :: ·) := by
  rw [lex, if_neg (by simp [noBlank])]
  split
  · next heq =>
    rw [h] at heq
    cases heq
  · next heq =>
    rw [h] at heq
    cases heq
    rfl

/-- Behind the last word of a spelling neither a word nor a number goes on. -/
theorem Spells.endsOperand (h : Spells s tokens) (ends : isBoundary s.head?) : EndsOperand s := by
  cases h with
  | nil => exact fun c hc => (by cases hc)
  | blank blank =>
    rintro c ⟨⟩
    refine ⟨not_isWordChar_of_isBlank blank, ?_⟩
    rintro rfl
    exact absurd blank (by decide)
  | symbol h =>
    rintro c ⟨⟩
    have mem := mem_symbols_of_ofChar? h
    refine ⟨not_isWordChar_of_mem_symbols mem, ?_⟩
    rintro rfl
    exact absurd mem (by decide)
  | @word w s token tokens h =>
    obtain ⟨c, w, rfl⟩ := List.exists_cons_of_ne_nil h.ne_nil
    have word := h.isWordChar c List.mem_cons_self
    rw [List.cons_append, List.head?_cons, isBoundary_some, word] at ends
    cases ends

theorem startsNumber_of_isDigit (h : c.isDigit) (s : List Char) : startsNumber (c :: s) := by
  unfold startsNumber
  split
  · next heq =>
    cases heq
    exact absurd h (by decide)
  · next heq =>
    cases heq
    exact h
  · next heq => cases heq

theorem startsNumber_eq_false (noDigit : c.isDigit = false) (noPoint : c ≠ '.') (s : List Char) :
    startsNumber (c :: s) = false := by
  unfold startsNumber
  split
  · next heq =>
    cases heq
    exact absurd rfl noPoint
  · next heq =>
    cases heq
    exact noDigit
  · rfl

/-- The beginning of an identifier begins no number and no text. -/
theorem isIdentStart_cases (h : isIdentStart c) :
    c.isDigit = false ∧ c ≠ '.' ∧ c ≠ '"' ∧ c ≠ '\'' := by
  refine ⟨not_isDigit_of_isIdentStart h, ?_, ?_, ?_⟩
  all_goals
    rintro rfl
    exact absurd h (by decide)

/-- A word is read as its token. -/
theorem OperandText.readToken (h : OperandText (c :: w) token) (ends : EndsOperand s) :
    readToken c (w ++ s) = .ok (token, s) := by
  generalize heq : c :: w = word at h
  cases h with
  | name h =>
    cases heq
    obtain ⟨noDigit, noPoint, noQuote, noQuote'⟩ :=
      isIdentStart_cases ((Bool.and_eq_true _ _).mp h).1
    have stop : ∀ d ∈ s.head?, isIdentChar d = false := fun d hd => by
      by_contra ident
      have := (ends d hd).1
      rw [isWordChar_of_isIdentChar (by simpa using ident)] at this
      cases this
    rw [Macro.readToken, startsNumber_eq_false noDigit noPoint, if_neg Bool.false_ne_true,
      if_neg (by simp [noQuote, noQuote']), ← List.cons_append, takeIdentifier_append h stop]
  | integer h fits =>
    cases heq
    obtain ⟨d, w', heq, digit⟩ := h.exists_digit
    cases heq
    rw [Macro.readToken, if_pos (startsNumber_of_isDigit digit _), ← List.cons_append,
      readNumber_append h fits ends]

/-- A symbol is read as its token. -/
theorem readToken_symbol (h : Token.ofChar? c = some token) (s : List Char) :
    readToken c s = .ok (token, s) := by
  obtain ⟨-, noDigit, noPoint, noQuote, noQuote', noIdent⟩ :=
    plain_of_mem_symbols (mem_symbols_of_ofChar? h)
  rw [readToken, startsNumber_eq_false noDigit noPoint, if_neg Bool.false_ne_true,
    if_neg (by simp [noQuote, noQuote']), takeIdentifier, if_neg (by simp [noIdent]), h]

/-- **A text is read as the tokens that it spells.** -/
theorem lex_eq_ok_of_spells (h : Spells s tokens) : lex s = .ok tokens := by
  induction h with
  | nil => rw [lex]
  | blank blank _ ih => rw [lex_cons_of_isBlank blank, ih]
  | symbol h _ ih =>
    have noBlank := (plain_of_mem_symbols (mem_symbols_of_ofChar? h)).1
    rw [lex_cons_of_readToken noBlank (readToken_symbol h _), ih]
    rfl
  | @word w s token tokens h ends more ih =>
    obtain ⟨c, w, rfl⟩ := List.exists_cons_of_ne_nil h.ne_nil
    have noBlank : isBlank c = false := by
      by_contra blank
      have := h.isWordChar c List.mem_cons_self
      rw [not_isWordChar_of_isBlank (by simpa using blank)] at this
      cases this
    rw [List.cons_append, lex_cons_of_readToken noBlank (h.readToken (more.endsOperand ends)), ih]
    rfl

/-! ## Tokens of texts -/

/-- A token with a value of its own. -/
def Token.isOperand : Token → Bool
  | .int _ | .float _ | .str _ | .name _ => true
  | _ => false

/-- An integer, a name or a symbol. -/
def Token.isPlain : Token → Bool
  | .float _ | .str _ => false
  | _ => true

/-- Two tokens that can stand next to each other: not two operands. -/
def Adjoin (a b : Token) : Prop := a.isOperand = false ∨ b.isOperand = false

/-- A spelling that does not begin with an operand begins with no word. -/
theorem Spells.isBoundary (h : Spells s tokens) (first : ∀ t ∈ tokens.head?, t.isOperand = false) :
    isBoundary s.head? := by
  cases h with
  | nil => rfl
  | blank blank => exact isBoundary_of_isBlank blank
  | symbol h =>
    rw [List.head?_cons, isBoundary_some, not_isWordChar_of_mem_symbols (mem_symbols_of_ofChar? h)]
    rfl
  | word h =>
    have operand := first _ rfl
    cases h <;> cases operand

theorem OperandText.isOperand (h : OperandText w token) : token.isOperand = true := by
  cases h <;> rfl

/-- What is read as a plain token is a symbol or a word. -/
theorem readToken_cases (h : readToken c s = .ok (token, rest)) (plain : token.isPlain) :
    (Token.ofChar? c = some token ∧ rest = s) ∨ ∃ w, c :: s = w ++ rest ∧ OperandText w token := by
  rw [readToken] at h
  split at h
  · next start =>
    rcases exists_integerText_of_readNumber start h with ⟨w, n, heq, hw, fits, rfl⟩ | ⟨x, rfl⟩
    · exact .inr ⟨w, heq, .integer hw fits⟩
    · cases plain
  split at h
  · split at h
    · cases h
      cases plain
    · cases h
  split at h
  · next name rest' taken =>
    cases h
    obtain ⟨ident, heq, -⟩ := takeIdentifier_eq_some taken
    exact .inr ⟨name, heq, .name ident⟩
  split at h
  · next symbol =>
    cases h
    exact .inl ⟨symbol, rfl⟩
  · cases h

/-- **A text spells the tokens that are read from it**, where these are plain and no two operands
touch. -/
theorem spells_of_lex (h : lex s = .ok tokens) (plain : ∀ t ∈ tokens, t.isPlain)
    (apart : tokens.IsChain Adjoin) : Spells s tokens := by
  fun_induction lex s generalizing tokens with
  | case1 =>
    cases h
    exact .nil
  | case2 c s blank ih => exact .blank blank (ih h plain apart)
  | case3 => cases h
  | case4 c s _ token rest read _ ih =>
    cases hl : lex rest with
    | error e => rw [hl] at h; cases h
    | ok ts =>
      rw [hl] at h
      cases h
      obtain ⟨first, plain⟩ := List.forall_mem_cons.mp plain
      obtain ⟨next, apart⟩ := List.isChain_cons.mp apart
      have more : Spells rest ts := ih hl plain apart
      rcases readToken_cases read first with ⟨symbol, rfl⟩ | ⟨w, heq, word⟩
      · exact .symbol symbol more
      · rw [heq]
        refine .word word (more.isBoundary fun t ht => ?_) more
        rcases next t ht with operand | operand
        · rw [word.isOperand] at operand
          cases operand
        · exact operand

end ShaderInterface.Macro
