import ShaderInterface.Text.Blank
import ShaderInterface.Text.Identifier
import ShaderInterface.Text.Occurrence
import ShaderInterface.Text.Split

/-!
# Declarations

A declaration introduces one uniform or attribute:

    uniform [lowp | mediump | highp] type name [ '[' size ']' ] { , name [ '[' size ']' ] } ;

A statement with several declarators makes one declaration of each. This module holds the parts
that every statement with a type and declarators is made of: the optional precision, the type and
the declarators between its commas. Struct fields are such statements too.
-/

namespace ShaderInterface

open Text

/-- The word that begins a declaration. -/
inductive Keyword where
  | uniform
  | attribute
  deriving DecidableEq, Repr

/-- The spelling of a keyword. -/
def Keyword.word : Keyword → String
  | .uniform => "uniform"
  | .attribute => "attribute"

/-- The precision of a type. -/
inductive Precision where
  | low
  | medium
  | high
  deriving DecidableEq, Repr

/-- The spelling of a precision. -/
def Precision.word : Precision → String
  | .low => "lowp"
  | .medium => "mediump"
  | .high => "highp"

/-- All precisions. -/
def Precision.all : List Precision := [.low, .medium, .high]

/-- A declared variable. -/
structure Declaration where
  keyword : Keyword
  precision : Option Precision
  type : String
  name : String
  /-- The text between the brackets. -/
  size : Option String
  /-- The text behind the semicolon on its line, comments included. -/
  trailing : String
  /-- The number of the line of the semicolon, counted from one. -/
  line : Nat
  deriving DecidableEq, Repr

namespace Declaration

/-- What follows one blank or more. -/
def dropBlanks? : List Char → Option (List Char)
  | c :: s => if isBlank c then some (s.dropWhile isBlank) else none
  | [] => none

/-- A precision with a blank behind it, and what follows the blanks. -/
def precision? (s : List Char) : Option (Precision × List Char) :=
  Precision.all.findSome? fun p => do
    let s ← afterPrefix? p.word.toList s
    let s ← dropBlanks? s
    some (p, s)

/-- A type with a blank behind it, and what `next` reads behind the blanks. -/
def typed? {α : Type} (next : List Char → Option α) (s : List Char) :
    Option (List Char × α) := do
  let (type, s) ← takeIdentifier s
  let s ← dropBlanks? s
  let a ← next s
  some (type, a)

/-- A type, possibly behind a precision, and what `next` reads behind it. Where nothing can be
read behind a precision and a type, the precision is taken for the type. -/
def qualified? {α : Type} (next : List Char → Option α) (s : List Char) :
    Option (Option Precision × List Char × α) :=
  let behindPrecision := do
    let (p, s) ← precision? s
    let (type, a) ← typed? next s
    some (some p, type, a)
  behindPrecision <|> (typed? next s).map fun (type, a) => (none, type, a)

/-- A text in brackets on one line, with its brackets, and what follows it. -/
def bracketed? : List Char → Option (List Char × List Char)
  | '[' :: s =>
    let inner := s.takeWhile fun c => c != ']' && c != '\n'
    match s.dropWhile fun c => c != ']' && c != '\n' with
    | ']' :: rest => some ('[' :: inner ++ [']'], rest)
    | _ => none
  | _ => none

/-- The text of a declarator, a name with the blanks and the bracketed size behind it, and what
follows it. -/
def declaratorText? (s : List Char) : Option (List Char × List Char) := do
  let (name, s) ← takeIdentifier s
  let blanks := s.takeWhile isBlank
  let s := s.dropWhile isBlank
  match bracketed? s with
  | some (size, rest) => some (name ++ blanks ++ size, rest)
  | none => some (name ++ blanks, s)

/-- The name and the size text of a declarator that stands alone. -/
def declarator? (s : List Char) : Option (List Char × Option (List Char)) := do
  let (name, s) ← takeIdentifier s
  match s.dropWhile isBlank with
  | [] => some (name, none)
  | '[' :: s =>
    if s.getLast? = some ']' ∧ ']' ∉ s.dropLast then some (name, some s.dropLast) else none
  | _ => none

/-- The texts between the commas of a text, without the blanks around them. -/
def pieces (s : List Char) : List (List Char) := (split ',' s).map trim

/-! ## Progress -/

theorem dropBlanks?_length_lt {s rest : List Char} (h : dropBlanks? s = some rest) :
    rest.length < s.length := by
  cases s with
  | nil => simp [dropBlanks?] at h
  | cons c s =>
    simp only [dropBlanks?, Option.ite_none_right_eq_some, Option.some.injEq] at h
    obtain ⟨-, rfl⟩ := h
    exact Nat.lt_succ_of_le (s.dropWhile_sublist isBlank).length_le

theorem afterPrefix?_length_le {token s rest : List Char}
    (h : afterPrefix? token s = some rest) : rest.length ≤ s.length := by
  simp [afterPrefix?_eq_some_iff.mp h]

theorem precision?_length_lt {s rest : List Char} {p : Precision}
    (h : precision? s = some (p, rest)) : rest.length < s.length := by
  obtain ⟨q, -, hq⟩ := List.exists_of_findSome?_eq_some h
  simp only [Option.bind_eq_bind, Option.bind_eq_some_iff, Option.some.injEq,
    Prod.mk.injEq] at hq
  obtain ⟨s₁, h₁, s₂, h₂, -, rfl⟩ := hq
  exact Nat.lt_of_lt_of_le (dropBlanks?_length_lt h₂) (afterPrefix?_length_le h₁)

theorem bracketed?_length_lt {s size rest : List Char} (h : bracketed? s = some (size, rest)) :
    rest.length < s.length := by
  unfold bracketed? at h
  split at h
  · next s =>
    simp only at h
    split at h
    · next rest' hr =>
      cases h
      have := (s.dropWhile_sublist fun c => c != ']' && c != '\n').length_le
      rw [hr] at this
      simp only [List.length_cons] at this ⊢
      omega
    · cases h
  · cases h

theorem declaratorText?_length_lt {s text rest : List Char}
    (h : declaratorText? s = some (text, rest)) : rest.length < s.length := by
  simp only [declaratorText?, Option.bind_eq_bind, Option.bind_eq_some_iff] at h
  obtain ⟨⟨name, s₁⟩, h₁, h⟩ := h
  have hs₁ := takeIdentifier_length_lt h₁
  have hd := (s₁.dropWhile_sublist isBlank).length_le
  dsimp only at h
  split at h
  · next hb =>
    cases h
    have := bracketed?_length_lt hb
    omega
  · cases h
    omega

/-! ## Statements -/

/-- The texts of the declarators between commas up to a semicolon, and what follows it. -/
def declaratorList? (s : List Char) : Option (List (List Char) × List Char) :=
  match h : declaratorText? s with
  | none => none
  | some (text, s') =>
    match hs : s'.dropWhile isBlank with
    | ';' :: rest => some ([text], rest)
    | ',' :: more =>
      have : (more.dropWhile isBlank).length < s.length := by
        have := declaratorText?_length_lt h
        have hd := (s'.dropWhile_sublist isBlank).length_le
        have := (more.dropWhile_sublist isBlank).length_le
        rw [hs] at hd
        simp only [List.length_cons] at hd
        omega
      (declaratorList? (more.dropWhile isBlank)).map fun (texts, rest) => (text :: texts, rest)
    | _ => none
termination_by s.length

/-- A declaration statement as it stands in a text. -/
structure Statement where
  precision : Option Precision
  type : List Char
  /-- The texts of the declarators. -/
  declarators : List (List Char)
  /-- The text behind the semicolon. -/
  rest : List Char
  deriving DecidableEq, Repr

/-- The statement that begins with the given word at the front of a text. -/
def statement? (word : List Char) (s : List Char) : Option Statement := do
  let s ← afterPrefix? word s
  let s ← dropBlanks? s
  let (precision, type, declarators, rest) ← qualified? declaratorList? s
  some { precision, type, declarators, rest }

theorem declaratorList?_length_lt {s rest : List Char} {texts : List (List Char)}
    (h : declaratorList? s = some (texts, rest)) : rest.length < s.length := by
  fun_induction declaratorList? s generalizing texts with
  | case1 => cases h
  | case2 s text s' ht rest' hs =>
    cases h
    have := declaratorText?_length_lt ht
    have hd := (s'.dropWhile_sublist isBlank).length_le
    rw [hs] at hd
    simp only [List.length_cons] at hd
    omega
  | case3 s text s' ht more hs hlt ih =>
    obtain ⟨⟨ts, r⟩, hr, heq⟩ := Option.map_eq_some_iff.mp h
    cases heq
    exact Nat.lt_trans (ih hr) hlt
  | case4 => cases h

theorem typed?_length_lt {s rest type : List Char} {texts : List (List Char)}
    (h : typed? declaratorList? s = some (type, texts, rest)) : rest.length < s.length := by
  simp only [typed?, Option.bind_eq_bind, Option.bind_eq_some_iff, Option.some.injEq,
    Prod.mk.injEq] at h
  obtain ⟨⟨name, s₁⟩, h₁, s₂, h₂, ⟨ts, r⟩, h₃, -, -, rfl⟩ := h
  have := takeIdentifier_length_lt h₁
  have := dropBlanks?_length_lt h₂
  have := declaratorList?_length_lt h₃
  dsimp only at *
  omega

theorem qualified?_length_lt {s rest type : List Char} {p : Option Precision}
    {texts : List (List Char)}
    (h : qualified? declaratorList? s = some (p, type, texts, rest)) : rest.length < s.length := by
  simp only [qualified?, Option.orElse_eq_orElse, Option.orElse_eq_or, Option.or_eq_some_iff,
    Option.bind_eq_bind, Option.bind_eq_some_iff, Option.map_eq_some_iff, Option.some.injEq,
    Prod.mk.injEq] at h
  rcases h with ⟨⟨q, s₁⟩, h₁, ⟨t, ts, r⟩, h₂, -, -, rfl, rfl⟩ | ⟨-, ⟨t, ts, r⟩, h₂, -, -, rfl, rfl⟩
  · exact Nat.lt_trans (typed?_length_lt h₂) (precision?_length_lt h₁)
  · exact typed?_length_lt h₂

theorem statement?_length_lt {word s : List Char} {st : Statement}
    (h : statement? word s = some st) : st.rest.length < s.length := by
  simp only [statement?, Option.bind_eq_bind, Option.bind_eq_some_iff, Option.some.injEq] at h
  obtain ⟨s₁, h₁, s₂, h₂, ⟨p, type, texts, rest⟩, h₃, rfl⟩ := h
  have := afterPrefix?_length_le h₁
  have := dropBlanks?_length_lt h₂
  have := qualified?_length_lt h₃
  simp only
  omega

/-- The statements with the given word in a text, from left to right. `previous` is the character
in front of the text; the word begins a statement where no word character precedes it. -/
def statementsFrom (word : List Char) (previous : Option Char) (s : List Char) : List Statement :=
  match s with
  | [] => []
  | c :: s =>
    match h : if isBoundary previous then statement? word (c :: s) else none with
    | some st =>
      have : st.rest.length ≤ s.length := by
        simp only [Option.ite_none_right_eq_some] at h
        exact Nat.le_of_lt_succ (statement?_length_lt h.2)
      st :: statementsFrom word (some ';') st.rest
    | none => statementsFrom word (some c) s
termination_by s.length

/-- The statements with the given word in a text, from left to right. -/
def statements (word s : List Char) : List Statement := statementsFrom word none s

end Declaration

end ShaderInterface
