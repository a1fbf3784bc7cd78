/-!
# Blank characters

`isBlank` is the Unicode property White_Space, on which trimming and the splitting of a statement
into words rest. Trimming leaves a part of the text (`trim_sublist`), and no word is empty or
holds a blank (`ne_nil_of_mem_words`, `not_isBlank_of_mem_words`).
-/

namespace ShaderInterface.Text

/-- A character with the property White_Space: the space, the five ASCII controls from tab to
carriage return, and the other breaks and spaces of Unicode. -/
def isBlank (c : Char) : Bool :=
  let n := c.toNat
  n == 0x20 || (0x09 ≤ n && n ≤ 0x0D) || n == 0x85 || n == 0xA0 || n == 0x1680 ||
    (0x2000 ≤ n && n ≤ 0x200A) || n == 0x2028 || n == 0x2029 || n == 0x202F || n == 0x205F ||
    n == 0x3000

/-- A space or a tab, the blanks that separate the words of a directive. -/
def isGap (c : Char) : Bool := c == ' ' || c == '\t'

/-- The text from its first character that is not blank. -/
def trimLeft (s : List Char) : List Char := s.dropWhile isBlank

/-- The text up to its last character that is not blank. -/
def trimRight (s : List Char) : List Char := (s.reverse.dropWhile isBlank).reverse

/-- The text without the blanks at both ends. -/
def trim (s : List Char) : List Char := trimRight (trimLeft s)

/-- A word put before others, unless it is empty. -/
def consWord (word : List Char) (rest : List (List Char)) : List (List Char) :=
  if word.isEmpty then rest else word :: rest

/-- The word at the front of the text, empty where a blank comes first, and the words after it. -/
def wordAndRest : List Char → List Char × List (List Char)
  | [] => ([], [])
  | c :: s =>
    let (word, rest) := wordAndRest s
    if isBlank c then ([], consWord word rest) else (c :: word, rest)

/-- The maximal runs of characters that are not blank, in order. -/
def words (s : List Char) : List (List Char) :=
  let (word, rest) := wordAndRest s
  consWord word rest

/-- The words of a text with one space between each two. -/
def squeeze (s : List Char) : List Char := [' '].intercalate (words s)

theorem trimLeft_length_le (s : List Char) : (trimLeft s).length ≤ s.length :=
  (s.dropWhile_sublist isBlank).length_le

theorem trimRight_sublist (s : List Char) : (trimRight s).Sublist s := by
  simpa [trimRight] using (s.reverse.dropWhile_sublist isBlank).reverse

theorem trim_sublist (s : List Char) : (trim s).Sublist s :=
  (trimRight_sublist _).trans (s.dropWhile_sublist isBlank)

theorem mem_consWord {word w : List Char} {rest : List (List Char)} :
    w ∈ consWord word rest ↔ (w = word ∧ word ≠ []) ∨ w ∈ rest := by
  cases word <;> simp [consWord]

theorem wordAndRest_good (s : List Char) :
    (∀ c ∈ (wordAndRest s).1, isBlank c = false) ∧
      ∀ w ∈ (wordAndRest s).2, w ≠ [] ∧ ∀ c ∈ w, isBlank c = false := by
  induction s with
  | nil => simp [wordAndRest]
  | cons c s ih =>
    by_cases h : isBlank c = true
    · simp only [wordAndRest, h, if_true, mem_consWord]
      refine ⟨by simp, fun w hw => ?_⟩
      rcases hw with ⟨rfl, ne⟩ | hw
      · exact ⟨ne, ih.1⟩
      · exact ih.2 w hw
    · simp only [Bool.not_eq_true] at h
      simp only [wordAndRest, h, Bool.false_eq_true, if_false, List.mem_cons, forall_eq_or_imp]
      exact ⟨⟨trivial, ih.1⟩, ih.2⟩

theorem ne_nil_of_mem_words {s w : List Char} (h : w ∈ words s) : w ≠ [] := by
  rcases mem_consWord.mp h with ⟨rfl, ne⟩ | h
  · exact ne
  · exact ((wordAndRest_good s).2 w h).1

theorem not_isBlank_of_mem_words {s w : List Char} (h : w ∈ words s) :
    ∀ c ∈ w, isBlank c = false := by
  rcases mem_consWord.mp h with ⟨rfl, -⟩ | h
  · exact (wordAndRest_good s).1
  · exact ((wordAndRest_good s).2 w h).2

/-- The blanks that a `Char` knows of are blanks. -/
theorem isBlank_of_isWhitespace {c : Char} (h : c.isWhitespace = true) : isBlank c = true := by
  simp only [Char.isWhitespace, Bool.or_eq_true, decide_eq_true_eq] at h
  rcases h with ((rfl | rfl) | rfl) | rfl <;> decide

end ShaderInterface.Text
