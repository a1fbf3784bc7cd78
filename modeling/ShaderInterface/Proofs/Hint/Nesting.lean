import Mathlib.Data.List.Basic
import Mathlib.Data.List.TakeWhile
import ShaderInterface.Hint.Nesting
import ShaderInterface.Hint.Token

/-!
# What the count of brackets sees of a hint

The count goes through a text character by character, and the reader goes through it token by token.
Both see the same brackets: a token that is no bracket leaves the count as it is
(`nestingFrom_of_step`), since words and numbers have neither quotes nor brackets in them, and a
string is a quoted span for the count too. A comment is none of these, so a quote or a bracket in it
may mislead the count; a `Steady` comment does not make it less.
-/

namespace ShaderInterface.Hint

open Number Text

variable {place place' place'' : Place} {s rest : List Char} {c : Char} {d d' : Nat}

/-! ## The count -/

theorem le_nestingFrom (place : Place) (d : Nat) (s : List Char) : d ≤ nestingFrom place d s := by
  cases s with
  | nil => exact Nat.le_refl d
  | cons c s => exact Nat.le_max_left d _

theorem depthAfter_mono (place : Place) (c : Char) (h : d ≤ d') :
    depthAfter place d c ≤ depthAfter place d' c := by
  unfold depthAfter
  split
  · split
    · omega
    · split <;> omega
  · exact h

/-- With more brackets open, more are counted. -/
theorem nestingFrom_mono (place : Place) (s : List Char) (h : d ≤ d') :
    nestingFrom place d s ≤ nestingFrom place d' s := by
  induction s generalizing place d d' with
  | nil => exact h
  | cons c s ih =>
    have rest := ih (place.next c) (depthAfter_mono place c h)
    simp only [nestingFrom]
    omega

/-- The place and the number of open brackets behind a text. -/
def scan (state : Place × Nat) (s : List Char) : Place × Nat :=
  s.foldl (fun (place, depth) c => (place.next c, depthAfter place depth c)) state

/-- What follows a text is counted from the state behind it. -/
theorem nestingFrom_scan_le (place : Place) (d : Nat) (s rest : List Char) :
    nestingFrom (scan (place, d) s).1 (scan (place, d) s).2 rest ≤
      nestingFrom place d (s ++ rest) := by
  induction s generalizing place d with
  | nil => exact Nat.le_refl _
  | cons c s ih =>
    exact Nat.le_trans (ih (place.next c) (depthAfter place d c)) (Nat.le_max_right d _)

/-- The count goes from one place to another without meeting a bracket. -/
def Passes (place : Place) (s : List Char) (place' : Place) (rest : List Char) : Prop :=
  ∀ d, nestingFrom place d s = nestingFrom place' d rest

theorem Passes.refl (place : Place) (s : List Char) : Passes place s place s := fun _ => rfl

theorem Passes.trans (h : Passes place s place' rest) {rest' : List Char}
    (h' : Passes place' rest place'' rest') : Passes place s place'' rest' :=
  fun d => (h d).trans (h' d)

/-- A character that leaves the number of open brackets alone is passed. -/
theorem passes_cons (keeps : ∀ d, depthAfter place d c = d) (s : List Char) :
    Passes place (c :: s) (place.next c) s := fun d => by
  rw [nestingFrom, keeps, Nat.max_eq_right (le_nestingFrom _ d s)]

/-- In a quoted span no bracket counts. -/
theorem passes_inside (place : Place) (h : place ≠ .outside) (c : Char) (s : List Char) :
    Passes place (c :: s) (place.next c) s :=
  passes_cons (fun d => by rw [depthAfter, if_neg h]) s

/-- A character that is neither a quote nor a bracket. -/
def isNeutral (c : Char) : Bool := !isQuote c && !isOpening c && !isClosing c

theorem passes_neutral (h : isNeutral c) (s : List Char) :
    Passes .outside (c :: s) .outside s := by
  simp only [isNeutral, Bool.and_eq_true, Bool.not_eq_true'] at h
  obtain ⟨⟨quote, opening⟩, closing⟩ := h
  have next : Place.outside.next c = .outside := by simp [Place.next, quote]
  have passes : Passes .outside (c :: s) (Place.outside.next c) s :=
    passes_cons (fun d => by simp [depthAfter, opening, closing]) s
  rwa [next] at passes

theorem passes_neutral_append {used : List Char} (h : used.all isNeutral) (rest : List Char) :
    Passes .outside (used ++ rest) .outside rest := by
  induction used with
  | nil => exact .refl _ _
  | cons c used ih =>
    obtain ⟨hc, h⟩ := (Bool.and_eq_true _ _).mp h
    exact (passes_neutral hc _).trans (ih h)

theorem passes_dropWhile {p : Char → Bool} (h : ∀ c, p c → isNeutral c) (s : List Char) :
    Passes .outside s .outside (s.dropWhile p) := by
  have neutral : (s.takeWhile p).all isNeutral :=
    List.all_eq_true.mpr fun c hc => h c (List.mem_takeWhile_imp hc)
  have passes := passes_neutral_append neutral (s.dropWhile p)
  rwa [List.takeWhile_append_dropWhile] at passes

/-! ## Neutral characters -/

/-- The characters that are not neutral. -/
def marks : List Char := ['"', '\'', '[', '\x7b', ']', '\x7d']

theorem isNeutral_iff : isNeutral c ↔ c ∉ marks := by
  simp [isNeutral, isQuote, isOpening, isClosing, marks, and_assoc]

/-- A class of characters is neutral when none of the marks belongs to it. -/
theorem isNeutral_of_class {p : Char → Bool} (none : marks.any p = false) (h : p c) :
    isNeutral c :=
  isNeutral_iff.mpr fun mark => Bool.false_ne_true
    (none.symm.trans (List.any_eq_true.mpr ⟨c, mark, h⟩))

theorem isNeutral_of_isDigit (h : c.isDigit) : isNeutral c := isNeutral_of_class (by decide) h

theorem isNeutral_of_isHexDigit (h : isHexDigit c) : isNeutral c :=
  isNeutral_of_class (by decide) h

theorem isNeutral_of_isSpace (h : isSpace c) : isNeutral c := isNeutral_of_class (by decide) h

theorem isNeutral_of_isWordPart (h : isWordPart c) : isNeutral c :=
  isNeutral_of_class (by decide +kernel) h

/-! ## Strings -/

variable {mark : Char}

theorem ne_of_isNeutral (neutral : isNeutral c) (quote : isQuote mark) : c ≠ mark := by
  rintro rfl
  simp [isNeutral, quote] at neutral

/-- A quote opens a quoted span. -/
theorem passes_quote (quote : isQuote mark) (s : List Char) :
    Passes .outside (mark :: s) (.quoted mark) s := by
  have opens : Passes .outside (mark :: s) (Place.outside.next mark) s := passes_cons (fun d => by
    have either : mark = '"' ∨ mark = '\'' := by simpa [isQuote] using quote
    rcases either with rfl | rfl <;> rfl) s
  rwa [Place.next, if_pos quote] at opens

/-- In a quoted span a neutral character is passed, but for the backslash. -/
theorem passes_quoted (quote : isQuote mark) (ne : c ≠ '\\') (neutral : isNeutral c)
    (s : List Char) : Passes (.quoted mark) (c :: s) (.quoted mark) s := by
  have passes := passes_inside (.quoted mark) nofun c s
  rwa [Place.next, if_neg ne, if_neg (ne_of_isNeutral neutral quote)] at passes

theorem passes_hexDigits (quote : isQuote mark) {digits : List Char}
    (h : ∀ c ∈ digits, isHexDigit c) (rest : List Char) :
    Passes (.quoted mark) (digits ++ rest) (.quoted mark) rest := by
  induction digits with
  | nil => exact .refl _ _
  | cons c digits ih =>
    obtain ⟨hc, h⟩ := List.forall_mem_cons.mp h
    have ne : c ≠ '\\' := by
      rintro rfl
      exact absurd hc (by decide)
    exact (passes_quoted quote ne (isNeutral_of_isHexDigit hc) _).trans (ih h)

theorem passes_hexDigits? {count n : Nat} (quote : isQuote mark)
    (h : hexDigits? count s = some (n, rest)) :
    Passes (.quoted mark) s (.quoted mark) rest := by
  simp only [hexDigits?, Option.ite_none_right_eq_some, Option.some.injEq, Prod.mk.injEq] at h
  obtain ⟨⟨-, digits⟩, -, rfl⟩ := h
  have passes := passes_hexDigits quote (List.all_eq_true.mp digits) (s.drop count)
  rwa [List.take_append_drop] at passes

/-- An escape is read to a place in the same span, maybe further on than where it ends for the
count. -/
theorem passes_readEscape {part : Option Part} (quote : isQuote mark)
    (h : readEscape s = some (part, rest)) :
    Passes (.escaped mark) s (.quoted mark) rest := by
  have first : ∀ c s, Passes (.escaped mark) (c :: s) (.quoted mark) s :=
    passes_inside (.escaped mark) nofun
  unfold readEscape at h
  split at h
  · cases h
  · obtain ⟨⟨n, r⟩, hr, heq⟩ := Option.map_eq_some_iff.mp h
    cases heq
    exact (first _ _).trans (passes_hexDigits? quote hr)
  · obtain ⟨⟨n, r⟩, hr, heq⟩ := Option.map_eq_some_iff.mp h
    cases heq
    exact (first _ _).trans (passes_hexDigits? quote hr)
  · cases h
    exact (first _ _).trans (passes_quoted quote (by decide) (by decide) _)
  · split at h
    · cases h
      exact first _ _
    · split at h
      · cases h
      · cases h
        exact first _ _

/-- A string is read to where the quoted span is over for the count. -/
theorem passes_readParts {parts : List Part} (quote : isQuote mark)
    (h : readParts mark s = some (parts, rest)) : Passes (.quoted mark) s .outside rest := by
  have step := passes_inside (.quoted mark) nofun
  have backslash : mark ≠ '\\' := by
    rintro rfl
    exact absurd quote (by decide)
  fun_induction readParts mark s generalizing parts with
  | case1 => cases h
  | case2 s =>
    cases h
    have passes := step mark rest
    rwa [Place.next, if_neg backslash, if_pos rfl] at passes
  | case3 => cases h
  | case4 s part rest' he _ _ ih =>
    obtain ⟨⟨ps, r⟩, hr, heq⟩ := Option.map_eq_some_iff.mp h
    cases heq
    have passes := step '\\' s
    rw [Place.next, if_pos rfl] at passes
    exact (passes.trans (passes_readEscape quote he)).trans (ih hr)
  | case5 => cases h
  | case6 c s ne ne' _ ih =>
    obtain ⟨⟨ps, r⟩, hr, heq⟩ := Option.map_eq_some_iff.mp h
    cases heq
    have passes := step c s
    rw [Place.next, if_neg ne', if_neg ne] at passes
    exact passes.trans (ih hr)

/-! ## Words and numbers -/

theorem passes_readWordParts (s : List Char) :
    Passes .outside s .outside (readWordParts s).2 := by
  fun_induction readWordParts s with
  | case1 a b c d s n _ hn parts rest hs ih =>
    rw [hs] at ih
    simp only [hexDigits?, Option.ite_none_right_eq_some] at hn
    have digits : [a, b, c, d].all isNeutral := List.all_eq_true.mpr fun x hx =>
      isNeutral_of_isHexDigit (List.all_eq_true.mp hn.1.2 x (by simpa using hx))
    have escape : Passes .outside ('\\' :: 'u' :: [a, b, c, d] ++ s) .outside s :=
      ((passes_neutral (by decide) _).trans (passes_neutral (by decide) _)).trans
        (passes_neutral_append digits s)
    exact escape.trans ih
  | case2 a b c d s hn => exact .refl _ _
  | case3 c s _ hc parts rest hs ih =>
    rw [hs] at ih
    exact (passes_neutral (isNeutral_of_isWordPart hc) s).trans ih
  | case4 c s _ hc => exact .refl _ _
  | case5 => exact .refl _ _

theorem passes_wholeDigits (s : List Char) : Passes .outside s .outside (wholeDigits s).2 := by
  fun_cases wholeDigits s with
  | case1 s => exact passes_neutral (by decide) s
  | case2 s => exact passes_dropWhile (fun c => isNeutral_of_isDigit) s

theorem passes_pointDigits? {digits : List Char} (h : pointDigits? s = some (digits, rest)) :
    Passes .outside s .outside rest := by
  unfold pointDigits? at h
  split at h
  · cases h
    exact (passes_neutral (by decide) _).trans (passes_dropWhile (fun c => isNeutral_of_isDigit) _)
  · cases h

theorem passes_exponent? {n : Int} (h : exponent? s = some (n, rest)) :
    Passes .outside s .outside rest := by
  unfold exponent? at h
  split at h
  · cases h
  · next mark s =>
    have sign : Passes .outside s .outside (exponentSign s).2 := by
      fun_cases exponentSign s with
      | case1 s => exact passes_neutral (by decide) s
      | case2 s => exact passes_neutral (by decide) s
      | case3 s => exact .refl _ _
    simp only [Option.ite_none_right_eq_some, Option.some.injEq, Prod.mk.injEq] at h
    obtain ⟨⟨e, -⟩, -, rfl⟩ := h
    have neutral : isNeutral mark := by rcases e with rfl | rfl <;> decide
    exact ((passes_neutral neutral s).trans sign).trans
      (passes_dropWhile (fun c => isNeutral_of_isDigit) _)

theorem passes_decimal? {negative : Bool} {v : Value} (h : decimal? negative s = some (v, rest)) :
    Passes .outside s .outside rest := by
  have fraction : ∀ t, Passes .outside t .outside (((pointDigits? t).map (·.2)).getD t) := by
    intro t
    cases ht : pointDigits? t with
    | none => exact .refl _ _
    | some p => exact passes_pointDigits? ht
  have exponent : ∀ t, Passes .outside t .outside (((exponent? t).map (·.2)).getD t) := fun t => by
    cases ht : exponent? t with
    | none => exact .refl _ _
    | some e => exact passes_exponent? ht
  simp only [decimal?] at h
  split at h
  · cases h
  · obtain ⟨w, -, heq⟩ := Option.map_eq_some_iff.mp h
    cases heq
    exact ((passes_wholeDigits s).trans (fraction _)).trans (exponent _)

theorem passes_hexadecimal? {v : Value} (h : hexadecimal? s = some (v, rest)) :
    Passes .outside s .outside rest := by
  simp only [hexadecimal?, Option.ite_none_left_eq_some, Option.some.injEq, Prod.mk.injEq] at h
  obtain ⟨-, -, rfl⟩ := h
  exact passes_dropWhile (fun c => isNeutral_of_isHexDigit) s

theorem passes_number? {v : Value} (h : number? s = some (v, rest)) :
    Passes .outside s .outside rest := by
  have prefixed : ∀ c s, isNeutral c → Passes .outside s .outside rest →
      Passes .outside (c :: s) .outside rest := fun c s neutral => (passes_neutral neutral s).trans
  unfold number? at h
  split at h
  · exact prefixed _ _ (by decide) (prefixed _ _ (by decide) (passes_hexadecimal? h))
  · exact prefixed _ _ (by decide) (prefixed _ _ (by decide) (passes_hexadecimal? h))
  · cases h
  · cases h
  · cases h
  · cases h
  · exact prefixed _ _ (by decide) (passes_decimal? h)
  · refine prefixed _ _ (by decide) ?_
    split at h
    · next r hr =>
      cases h
      rcases Option.or_eq_some_iff.mp hr with hr | ⟨-, hr⟩
      · exact afterPrefix?_eq_some_iff.mp hr ▸ passes_neutral_append (by decide) _
      · exact afterPrefix?_eq_some_iff.mp hr ▸ passes_neutral_append (by decide) _
    · exact passes_decimal? h
  · exact passes_decimal? h

theorem depth_of_decimal? {negative : Bool} {v : Value} (h : decimal? negative s = some (v, rest)) :
    v.depth = 0 := by
  have int : ∀ n, ∀ w ∈ intValue? n, w.depth = 0 := fun n w hw => by
    obtain ⟨-, eq⟩ := Option.ite_none_right_eq_some.mp hw
    cases eq
    simp [Value.depth]
  have float : ∀ x, ∀ w ∈ floatValue? x, w.depth = 0 := fun x w hw => by
    obtain ⟨-, eq⟩ := Option.ite_none_left_eq_some.mp hw
    cases eq
    simp [Value.depth]
  simp only [decimal?] at h
  split at h
  · cases h
  · obtain ⟨w, hw, heq⟩ := Option.map_eq_some_iff.mp h
    cases heq
    split at hw
    · exact int _ v hw
    · exact float _ v hw

/-- A number is a scalar. -/
theorem depth_of_number? {v : Value} (h : number? s = some (v, rest)) : v.depth = 0 := by
  have hexadecimal : ∀ {t}, hexadecimal? t = some (v, rest) → v.depth = 0 := fun h => by
    simp only [hexadecimal?, Option.ite_none_left_eq_some, Option.some.injEq, Prod.mk.injEq] at h
    obtain ⟨-, rfl, -⟩ := h
    simp [Value.depth]
  unfold number? at h
  split at h
  · exact hexadecimal h
  · exact hexadecimal h
  · cases h
  · cases h
  · cases h
  · cases h
  · exact depth_of_decimal? h
  · split at h
    · cases h
      simp [Value.depth]
    · exact depth_of_decimal? h
  · exact depth_of_decimal? h

/-! ## The front of a text -/

theorem behindComment?_suffix (h : behindComment? s = some rest) : rest <:+ s := by
  fun_induction behindComment? s with
  | case1 => cases h
  | case2 s =>
    cases h
    exact List.suffix_append ['*', '/'] rest
  | case3 c s _ ih => exact (ih h).trans (List.suffix_cons c s)

/-- What may stand at the front of a text, and what follows it. -/
inductive Front (c : Char) (s : List Char) : Option Token → List Char → Prop where
  | space (h : isSpace c) : Front c s none s
  | punctuation {token : Token} (h : punctuation? c = some token) : Front c s (some token) s
  | string {parts : List Part} {text : String} {rest : List Char} (quote : isQuote c)
      (h : readParts c s = some (parts, rest)) : Front c s (some (.str text)) rest
  | comment {rest : List Char} (slash : c = '/') (h : rest <:+ c :: s) : Front c s none rest
  | word {text : String} {escaped : Bool} (other : c ≠ '/') :
      Front c s (some (.word text escaped)) (readWordParts (c :: s)).2
  | number {v : Value} {rest : List Char} (other : c ≠ '/')
      (h : number? (c :: s) = some (v, rest)) : Front c s (some (.number v)) rest

theorem front_of_step {token : Option Token} (h : step c s = some (token, rest)) :
    Front c s token rest := by
  unfold step at h
  split at h
  · next space =>
    cases h
    exact .space space
  split at h
  · next punctuation =>
    cases h
    exact .punctuation punctuation
  split at h
  · next mark =>
    simp only [Option.bind_eq_bind, Option.bind_eq_some_iff, Option.some.injEq,
      Prod.mk.injEq] at h
    obtain ⟨⟨parts, r⟩, hr, text, -, rfl, rfl⟩ := h
    exact .string (by simpa [isQuote] using mark) hr
  split at h
  · next slash =>
    split at h
    · next t =>
      cases h
      exact .comment slash ((List.dropWhile_suffix _).trans (List.suffix_append [c, '/'] t))
    · next t =>
      obtain ⟨r, hr, heq⟩ := Option.map_eq_some_iff.mp h
      cases heq
      exact .comment slash ((behindComment?_suffix hr).trans (List.suffix_append [c, '*'] t))
    · cases h
  next other =>
  split at h
  · simp only at h
    split at h
    · cases h
    · obtain ⟨t, ht, heq⟩ := Option.map_eq_some_iff.mp h
      cases heq
      obtain ⟨text, -, rfl⟩ := Option.map_eq_some_iff.mp ht
      exact .word other
  · obtain ⟨⟨v, r⟩, hr, heq⟩ := Option.map_eq_some_iff.mp h
    cases heq
    exact .number other hr

/-- What begins with a slash is a comment, and what follows it is the end of the text. -/
theorem Front.suffix_of_slash {token : Option Token} (h : Front '/' s token rest) :
    token = none ∧ rest <:+ '/' :: s := by
  cases h with
  | space h => exact absurd h (by decide)
  | punctuation h =>
    have none : punctuation? '/' = .none := by decide
    cases none.symm.trans h
  | string quote _ => exact absurd quote (by decide)
  | comment _ h => exact ⟨rfl, h⟩
  | word other => exact absurd rfl other
  | number other _ => exact absurd rfl other

/-! ## Tokens -/

/-- The number of open brackets behind a token. -/
def Token.level (d : Nat) : Token → Nat
  | .openBrace | .openBracket => d + 1
  | .closeBrace | .closeBracket => d - 1
  | _ => d

/-- The depth of the value that a token carries. -/
def Token.depth : Token → Nat
  | .number v => v.depth
  | _ => 0

/-- The number of open brackets behind what stands at the front of a text. -/
def levelAfter (d : Nat) (token : Option Token) : Nat := token.elim d (Token.level d)

/-- The greatest depth in a list of tokens, where `d` brackets are open in front of it. -/
def peakFrom (d : Nat) : List Token → Nat
  | [] => d
  | token :: tokens => max (d + token.depth) (peakFrom (token.level d) tokens)

theorem le_peakFrom (d : Nat) (tokens : List Token) : d ≤ peakFrom d tokens := by
  cases tokens with
  | nil => exact Nat.le_refl d
  | cons token tokens => simp only [peakFrom]; omega

/-- No token that is read carries an array or an object. -/
theorem Front.depth_eq_zero {token : Token} (h : Front c s (some token) rest) :
    token.depth = 0 := by
  cases h with
  | punctuation h =>
    unfold punctuation? at h
    split_ifs at h <;> cases h <;> rfl
  | string _ _ => rfl
  | word _ => rfl
  | number _ h => exact depth_of_number? h

/-- What stands at the front of a text comes before the tokens of the rest. -/
theorem Front.peakFrom_eq {token : Option Token} (h : Front c s token rest) (d : Nat)
    (tokens : List Token) :
    peakFrom d (token.toList ++ tokens) = max d (peakFrom (levelAfter d token) tokens) := by
  cases token with
  | none => exact (Nat.max_eq_right (le_peakFrom d tokens)).symm
  | some token =>
    change max (d + token.depth) _ = _
    rw [h.depth_eq_zero]
    rfl

theorem nestingFrom_of_punctuation? {token : Token} (h : punctuation? c = some token) (d : Nat)
    (s : List Char) :
    nestingFrom .outside d (c :: s) = max d (nestingFrom .outside (token.level d) s) := by
  unfold punctuation? at h
  split_ifs at h <;> cases h <;> subst c <;> rfl

theorem Passes.nestingFrom_eq (h : Passes .outside s .outside rest) (d : Nat) :
    nestingFrom .outside d s = max d (nestingFrom .outside d rest) := by
  rw [h d, Nat.max_eq_right (le_nestingFrom _ d rest)]

/-- A token or white space changes the number of open brackets for the count as it does for the
reader. -/
theorem Front.nestingFrom_eq {token : Option Token} (h : Front c s token rest) (ne : c ≠ '/')
    (d : Nat) :
    nestingFrom .outside d (c :: s) =
      max d (nestingFrom .outside (levelAfter d token) rest) := by
  cases h with
  | space h => exact (passes_neutral (isNeutral_of_isSpace h) s).nestingFrom_eq d
  | punctuation h => exact nestingFrom_of_punctuation? h d s
  | string quote h =>
    exact ((passes_quote quote s).trans (passes_readParts quote h)).nestingFrom_eq d
  | comment slash _ => exact absurd slash ne
  | word _ => exact (passes_readWordParts (c :: s)).nestingFrom_eq d
  | number _ h => exact (passes_number? h).nestingFrom_eq d

/-! ## Comments -/

/-- What stands in front of the rest of a text, if it is a comment. -/
def comment? (s rest : List Char) : Option (List Char) :=
  if s.head? = some '/' then some (s.take (s.length - rest.length)) else none

/-- The comments in a text, as far as it can be read. -/
def comments (s : List Char) : List (List Char) :=
  match s with
  | [] => []
  | c :: s =>
    match h : step c s with
    | none => []
    | some (_, rest) =>
      have : rest.length ≤ s.length := Nat.le_of_lt_succ (step_length_lt h)
      (comment? (c :: s) rest).toList ++ comments rest
termination_by s.length

theorem comments_cons {token : Option Token} (h : step c s = some (token, rest)) :
    comments (c :: s) = (comment? (c :: s) rest).toList ++ comments rest := by
  -- the equation of `comments` is taken from its cases: rewriting with it would unfold `step`
  generalize text : c :: s = t
  fun_cases comments t with
  | case1 => cases text
  | case2 c s none =>
    cases text
    exact absurd (none.symm.trans h) nofun
  | case3 c s token rest found _ =>
    cases text
    cases found.symm.trans h
    rfl

/-- A comment that leaves no span open for the count and does not lower the number of brackets that
are open. -/
def Steady (comment : List Char) : Prop :=
  ∀ d, ∃ d', scan (.outside, d) comment = (.outside, d') ∧ d ≤ d'

/-- What follows a steady comment is counted with at least as many brackets open. -/
theorem Steady.nestingFrom_le {comment : List Char} (h : Steady comment) (d : Nat)
    (rest : List Char) :
    nestingFrom .outside d rest ≤ nestingFrom .outside d (comment ++ rest) := by
  obtain ⟨d', behind, le⟩ := h d
  have count := nestingFrom_scan_le .outside d comment rest
  rw [behind] at count
  exact Nat.le_trans (nestingFrom_mono .outside rest le) count

/-- **The count does not fall behind the reader.** Of a text whose comments are steady it is at
least the greatest number of brackets that are open among the tokens. -/
theorem peakFrom_le_nestingFrom {tokens : List Token} (h : lex s = some tokens)
    (steady : ∀ comment ∈ comments s, Steady comment) (d : Nat) :
    peakFrom d tokens ≤ nestingFrom .outside d s := by
  fun_induction lex s generalizing tokens d with
  | case1 =>
    cases h
    exact Nat.le_refl d
  | case2 => cases h
  | case3 c s token rest hs _ ih =>
    obtain ⟨ts, hts, rfl⟩ := Option.map_eq_some_iff.mp h
    rw [comments_cons hs] at steady
    have front := front_of_step hs
    rw [front.peakFrom_eq]
    by_cases slash : c = '/'
    · subst slash
      rw [comment?, List.head?_cons, if_pos rfl, Option.toList_some, List.singleton_append,
        List.forall_mem_cons] at steady
      obtain ⟨rfl, suffix⟩ := front.suffix_of_slash
      have cut := List.suffix_iff_eq_append.mp suffix
      have comment := steady.1.nestingFrom_le d rest
      rw [cut] at comment
      exact Nat.max_le.mpr ⟨le_nestingFrom _ d _, Nat.le_trans (ih hts steady.2 d) comment⟩
    · rw [comment?, if_neg (by simpa using slash)] at steady
      rw [front.nestingFrom_eq slash]
      have rest := ih hts steady (levelAfter d token)
      omega

end ShaderInterface.Hint
