import ShaderInterface.Text.Word

/-!
# Identifiers

An identifier is an ASCII letter or underscore followed by ASCII letters, digits and underscores.
`takeIdentifier` reads the longest one at the front of a text; what it reads and what it leaves
make up the text (`takeIdentifier_eq_some`), and the rest does not go on with an identifier
character.
-/

namespace ShaderInterface.Text

/-- A character that may begin an identifier. -/
def isIdentStart (c : Char) : Bool := c.isAlpha || c == '_'

/-- A character that may continue an identifier. -/
def isIdentChar (c : Char) : Bool := c.isAlphanum || c == '_'

/-- The text is an identifier. -/
def isIdentifier : List Char → Bool
  | [] => false
  | c :: s => isIdentStart c && s.all isIdentChar

/-- The longest identifier at the front of the text, and what follows it. -/
def takeIdentifier : List Char → Option (List Char × List Char)
  | [] => none
  | c :: s =>
    if isIdentStart c then some (c :: s.takeWhile isIdentChar, s.dropWhile isIdentChar) else none

theorem isIdentChar_of_isIdentStart {c : Char} (h : isIdentStart c = true) :
    isIdentChar c = true := by
  simp only [isIdentStart, isIdentChar, Char.isAlphanum, Bool.or_eq_true] at h ⊢
  exact h.imp_left Or.inl

theorem isWordChar_of_isIdentChar {c : Char} (h : isIdentChar c = true) :
    isWordChar c = true := by
  rcases (Bool.or_eq_true _ _).mp h with h | h
  · exact isWordChar_of_isAlphanum h
  · simp [isWordChar, isConnector, h]

theorem takeIdentifier_eq_some {s name rest : List Char}
    (h : takeIdentifier s = some (name, rest)) :
    isIdentifier name = true ∧ s = name ++ rest ∧ ∀ c ∈ rest.head?, isIdentChar c = false := by
  cases s with
  | nil => simp [takeIdentifier] at h
  | cons c s =>
    simp only [takeIdentifier, Option.ite_none_right_eq_some, Option.some.injEq,
      Prod.mk.injEq] at h
    obtain ⟨start, rfl, rfl⟩ := h
    refine ⟨by simp [isIdentifier, start], by simp, fun d hd => ?_⟩
    have first := List.head?_dropWhile_not isIdentChar s
    rw [Option.mem_def.mp hd] at first
    simpa using first

theorem takeIdentifier_length_lt {s name rest : List Char}
    (h : takeIdentifier s = some (name, rest)) : rest.length < s.length := by
  obtain ⟨ident, rfl, -⟩ := takeIdentifier_eq_some h
  cases name with
  | nil => simp [isIdentifier] at ident
  | cons c name =>
    simp only [List.length_append, List.length_cons]
    omega

end ShaderInterface.Text
