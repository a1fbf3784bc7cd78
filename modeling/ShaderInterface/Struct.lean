import ShaderInterface.Declaration
import ShaderInterface.Macro.Table
import ShaderInterface.NameMap
import ShaderInterface.Error

/-!
# Struct definitions

    struct Light { vec3 position; lowp float weights[N * 2]; };

A body is a sequence of statements with a type and declarators. What cannot be read, and a size
that is no positive number, is kept as an error of the definition, which counts once the struct is
used. `Table.ofText` reads the definitions of a text without comments; of two with one name the
later counts.
-/

namespace ShaderInterface.Struct

open Text Declaration

/-- A field of a struct. -/
structure Field where
  type : String
  name : String
  /-- The length of a field that is an array. -/
  length : Option Nat
  deriving DecidableEq, Repr

/-- A struct definition. -/
structure Definition where
  type : String
  /-- The fields, in the order of their declarators. -/
  fields : List Field
  /-- What is wrong with the body, in order. -/
  errors : List Error
  deriving DecidableEq, Repr

/-- The error of a part of a body that cannot be read. -/
def unreadable (type : String) (text : List Char) : Error :=
  .unsupportedType type ("field '" ++ String.ofList text ++ "'")

/-- The field that a declarator in the body of a struct makes. -/
def field (macros : Macro.Table) (type : String) (fieldType text : List Char) :
    Except Error Field :=
  match declarator? text with
  | none => .error (unreadable type text)
  | some (name, none) =>
    .ok { type := String.ofList fieldType, name := String.ofList name, length := none }
  | some (name, some size) =>
    match (macros.eval size).toOption.bind Macro.Literal.positive? with
    | some length =>
      .ok { type := String.ofList fieldType, name := String.ofList name, length := some length }
    | none =>
      .error (.invalidArraySize (type ++ "." ++ String.ofList name) (String.ofList (trim size)))

/-- A text that is not empty. -/
def nonempty? (s : List Char) : Option (List Char) := if s.isEmpty then none else some s

/-- The fields that a statement in the body of a struct makes. -/
def fieldsOfStatement (macros : Macro.Table) (type : String) (statement : List Char) :
    List (Except Error Field) :=
  match qualified? nonempty? statement with
  | some (_, fieldType, declarators) =>
    (pieces declarators).map (field macros type fieldType)
  | none => [.error (unreadable type statement)]

/-- The statements in a body, without the empty ones, with one space between each two words. -/
def bodyStatements (body : List Char) : List (List Char) :=
  ((split ';' body).map squeeze).filter fun statement => !statement.isEmpty

/-- The value of a success. -/
def ok? {ε α : Type} : Except ε α → Option α
  | .ok a => some a
  | .error _ => none

/-- The error of a failure. -/
def error? {ε α : Type} : Except ε α → Option ε
  | .ok _ => none
  | .error e => some e

/-- The definition of a struct with the given body. -/
def Definition.ofBody (macros : Macro.Table) (type : String) (body : List Char) : Definition :=
  let results := (bodyStatements body).flatMap (fieldsOfStatement macros type)
  { type, fields := results.filterMap ok?, errors := results.filterMap error? }

/-- A struct definition as it stands in a text. -/
structure Occurrence where
  type : List Char
  body : List Char
  /-- The text behind the closing brace. -/
  rest : List Char
  deriving DecidableEq, Repr

/-- The word that begins a struct definition. -/
def word : List Char := "struct".toList

/-- The opening brace. -/
def openingBrace : Char := '\x7b'

/-- The closing brace. -/
def closingBrace : Char := '\x7d'

/-- The struct definition at the front of a text. -/
def occurrence? (s : List Char) : Option Occurrence := do
  let s ← afterPrefix? word s
  let s ← dropBlanks? s
  let (type, s) ← takeIdentifier s
  let s ← afterPrefix? [openingBrace] (s.dropWhile isBlank)
  let body := s.takeWhile (· != closingBrace)
  let rest ← afterPrefix? [closingBrace] (s.dropWhile (· != closingBrace))
  some { type, body, rest }

theorem occurrence?_length_lt {s : List Char} {o : Occurrence} (h : occurrence? s = some o) :
    o.rest.length < s.length := by
  simp only [occurrence?, Option.bind_eq_bind, Option.bind_eq_some_iff, Option.some.injEq] at h
  obtain ⟨s₁, h₁, s₂, h₂, ⟨type, s₃⟩, h₃, s₄, h₄, rest, h₅, rfl⟩ := h
  have := afterPrefix?_length_le h₁
  have := dropBlanks?_length_lt h₂
  have := takeIdentifier_length_lt h₃
  have := afterPrefix?_length_le h₄
  have := (s₃.dropWhile_sublist isBlank).length_le
  have := afterPrefix?_length_le h₅
  have := (s₄.dropWhile_sublist (· != closingBrace)).length_le
  dsimp only at *
  omega

/-- The struct definitions in a text, from left to right. `previous` is the character in front of
the text; the word begins a definition where no word character precedes it. -/
def occurrencesFrom (previous : Option Char) (s : List Char) : List Occurrence :=
  match s with
  | [] => []
  | c :: s =>
    match h : if isBoundary previous then occurrence? (c :: s) else none with
    | some o =>
      have : o.rest.length ≤ s.length := by
        simp only [Option.ite_none_right_eq_some] at h
        exact Nat.le_of_lt_succ (occurrence?_length_lt h.2)
      o :: occurrencesFrom (some closingBrace) o.rest
    | none => occurrencesFrom (some c) s
termination_by s.length

/-- The structs that a text defines, by type name. -/
abbrev Table := NameMap Definition

/-- The structs that a text without comments defines. -/
def Table.ofText (macros : Macro.Table) (s : List Char) : Table :=
  (occurrencesFrom none s).foldl
    (fun table o =>
      let type := String.ofList o.type
      table.insert type (Definition.ofBody macros type o.body))
    ∅

end ShaderInterface.Struct
