import Mathlib.Data.List.Infix
import ShaderInterface.Proofs.Comment

/-!
# The grammar of comments

A text is a sequence of pieces: characters of code, quoted spans, line comments and block comments
(`Piece`). Such a sequence fits together when no slash of the code makes a marker with the
character behind it, and a piece that has to end with its line or with the text does so (`Fits`).

Every text is a sequence that fits (`exists_fits`), and blanking goes through it piece by piece:
it keeps the code and the quoted spans and covers the comments (`blank_pieces`). So a marker in a
quoted span, a quote in a comment and the marker of one comment in another mean nothing, and a
quoted span without its quote ends with its line.
-/

namespace ShaderInterface.Comment

/-! ## Pieces -/

/-- A part of a quoted span. -/
inductive QuotedPart (mark : Char) where
  /-- A backslash, and the character of the line that it protects. -/
  | escaped (c : { c : Char // c ≠ '\n' })
  /-- A character that stands for itself. -/
  | plain (c : { c : Char // c ≠ mark ∧ c ≠ '\\' ∧ c ≠ '\n' })

/-- How a quoted span ends. -/
inductive QuoteEnd where
  /-- With its mark. -/
  | mark
  /-- With its line, possibly behind a backslash that protects nothing. -/
  | lineFeed (backslash : Bool)
  /-- With the text, possibly behind a backslash that protects nothing. -/
  | textEnd (backslash : Bool)

/-- A text on one line. -/
abbrev LineText := { s : List Char // '\n' ∉ s }

/-- A text in which no block comment ends. -/
abbrev BlockText := { s : List Char // ¬ ['*', '/'] <:+: s }

/-- A piece of a text. -/
inductive Piece where
  /-- A character of the code. -/
  | code (c : { c : Char // isQuote c = false })
  | quoted (mark : { c : Char // isQuote c = true }) (parts : List (QuotedPart mark.1))
      (ending : QuoteEnd)
  /-- A line comment, up to its line feed. -/
  | line (inner : LineText)
  | block (inner : BlockText)
  /-- A block comment that is never closed. -/
  | openBlock (inner : BlockText)

def QuotedPart.text {mark : Char} : QuotedPart mark → List Char
  | escaped c => ['\\', c.1]
  | plain c => [c.1]

/-- A backslash, or nothing. -/
def strayBackslash (backslash : Bool) : List Char := if backslash then ['\\'] else []

def QuoteEnd.text (mark : Char) : QuoteEnd → List Char
  | .mark => [mark]
  | lineFeed backslash => strayBackslash backslash ++ ['\n']
  | textEnd backslash => strayBackslash backslash

namespace Piece

/-- The text of a piece, markers and marks included. -/
def text : Piece → List Char
  | code c => [c.1]
  | quoted mark parts ending => mark.1 :: (parts.flatMap QuotedPart.text ++ ending.text mark.1)
  | line inner => '/' :: '/' :: inner.1
  | block inner => '/' :: '*' :: (inner.1 ++ ['*', '/'])
  | openBlock inner => '/' :: '*' :: inner.1

/-- The piece is a comment. -/
def isComment : Piece → Bool
  | code _ | quoted .. => false
  | line _ | block _ | openBlock _ => true

end Piece

/-- What stands for a character of a comment: a space, unless it is a line feed. -/
def cover (c : Char) : Char := if c = '\n' then c else ' '

/-- What blanking makes of a piece: a comment is covered, all else stays. -/
def Piece.blanked (p : Piece) : List Char := if p.isComment then p.text.map cover else p.text

/-- The text that pieces make up. -/
def spell (ps : List Piece) : List Char := ps.flatMap Piece.text

/-- What may follow the end of a quoted span. -/
def QuoteEnd.Precedes : QuoteEnd → List Char → Prop
  | .mark, _ | lineFeed _, _ => True
  | textEnd _, s => s = []

/-- What may follow a piece: behind a slash of the code no character that makes a marker with it,
behind a line comment its line feed or nothing, and nothing behind what is never closed. -/
def Piece.Precedes : Piece → List Char → Prop
  | code c, s => c.1 = '/' → ∀ d ∈ s.head?, d ≠ '/' ∧ d ≠ '*'
  | quoted _ _ ending, s => ending.Precedes s
  | line _, s => ∀ d ∈ s.head?, d = '\n'
  | block _, _ => True
  | openBlock _, s => s = []

/-- Every piece is one that what follows it admits, `s` being what follows them all. -/
def Fits : List Piece → List Char → Prop
  | [], _ => True
  | p :: ps, s => p.Precedes (spell ps ++ s) ∧ Fits ps s

instance (ending : QuoteEnd) (s : List Char) : Decidable (ending.Precedes s) :=
  match ending with
  | .mark | .lineFeed _ => .isTrue trivial
  | .textEnd _ => inferInstanceAs (Decidable (s = []))

instance (p : Piece) (s : List Char) : Decidable (p.Precedes s) :=
  match p with
  | .code c =>
    -- Named, for otherwise all characters may be gone through.
    have : Decidable (∀ d ∈ s.head?, d ≠ '/' ∧ d ≠ '*') := Option.decidableForallMem _
    inferInstanceAs (Decidable (c.1 = '/' → ∀ d ∈ s.head?, d ≠ '/' ∧ d ≠ '*'))
  | .quoted _ _ ending => inferInstanceAs (Decidable (ending.Precedes s))
  | .line _ => Option.decidableForallMem _
  | .block _ => .isTrue trivial
  | .openBlock _ => inferInstanceAs (Decidable (s = []))

instance decidableFits : (ps : List Piece) → (s : List Char) → Decidable (Fits ps s)
  | [], _ => .isTrue trivial
  | _ :: ps, s =>
    have := decidableFits ps s
    inferInstanceAs (Decidable (_ ∧ _))

@[simp] theorem spell_nil : spell [] = [] := rfl

@[simp] theorem spell_cons (p : Piece) (ps : List Piece) :
    spell (p :: ps) = p.text ++ spell ps := rfl

theorem spell_append (ps qs : List Piece) : spell (ps ++ qs) = spell ps ++ spell qs :=
  List.flatMap_append

/-! ## One piece -/

section Piece

variable {c mark : Char} {s inner : List Char}

theorem blankFrom_block_cons (noEnd : c = '*' → s.head? ≠ some '/') :
    blankFrom .block (c :: s) = cover c :: blankFrom .block s := by
  rw [blankFrom, cover]
  rintro s' rfl rfl
  exact noEnd rfl rfl

theorem ne_backslash_of_isQuote (h : isQuote mark = true) : mark ≠ '\\' := by
  rintro rfl
  cases h

theorem blankFrom_quotedParts (parts : List (QuotedPart mark)) (s : List Char) :
    blankFrom (.quoted mark) (parts.flatMap QuotedPart.text ++ s) =
      parts.flatMap QuotedPart.text ++ blankFrom (.quoted mark) s := by
  induction parts with
  | nil => rfl
  | cons part parts ih =>
    rw [List.flatMap_cons, List.append_assoc, List.append_assoc]
    cases part with
    | escaped c =>
      change blankFrom (.quoted mark) ('\\' :: c.1 :: (_ ++ s)) = _
      rw [blankFrom, if_neg c.2, ih]
      rfl
    | plain c =>
      change blankFrom (.quoted mark) (c.1 :: (_ ++ s)) = _
      rw [blankFrom_quoted_cons c.2.2.1, if_neg (not_or.mpr ⟨c.2.1, c.2.2.2⟩), ih]
      rfl

/-- A quoted span ends where it should. -/
theorem blankFrom_quoteEnd (quote : isQuote mark = true) {ending : QuoteEnd}
    (h : ending.Precedes s) :
    blankFrom (.quoted mark) (ending.text mark ++ s) = ending.text mark ++ blankFrom .code s := by
  cases ending with
  | mark =>
    change blankFrom (.quoted mark) (mark :: s) = mark :: blankFrom .code s
    rw [blankFrom_quoted_cons (ne_backslash_of_isQuote quote), if_pos (.inl rfl)]
  | lineFeed backslash =>
    cases backslash with
    | false =>
      change blankFrom (.quoted mark) ('\n' :: s) = '\n' :: blankFrom .code s
      rw [blankFrom_quoted_cons (by decide), if_pos (.inr rfl)]
    | true =>
      change blankFrom (.quoted mark) ('\\' :: '\n' :: s) = '\\' :: '\n' :: blankFrom .code s
      rw [blankFrom, if_pos rfl]
  | textEnd backslash =>
    obtain rfl : s = [] := h
    cases backslash with
    | false => simp [QuoteEnd.text, strayBackslash, blankFrom]
    | true => simp [QuoteEnd.text, strayBackslash, blankFrom]

theorem blankFrom_line_append (inLine : '\n' ∉ inner) (s : List Char) :
    blankFrom .line (inner ++ s) = inner.map cover ++ blankFrom .line s := by
  induction inner with
  | nil => rfl
  | cons c inner ih =>
    obtain ⟨ne, inLine⟩ := List.ne_and_not_mem_of_not_mem_cons inLine
    rw [List.cons_append, blankFrom, if_neg ne.symm, ih inLine, List.map_cons, cover,
      if_neg ne.symm, List.cons_append]

/-- Behind a line comment stands its line feed, which is code again. -/
theorem blankFrom_line_eq (h : ∀ d ∈ s.head?, d = '\n') :
    blankFrom .line s = blankFrom .code s := by
  cases s with
  | nil => simp [blankFrom]
  | cons c s =>
    obtain rfl := h c rfl
    rw [blankFrom_code_cons (by simp), blankFrom, if_pos rfl]
    rfl

/-- A block comment goes on over a text in which it does not end. -/
theorem blankFrom_block_append (noEnd : ¬ ['*', '/'] <:+: inner) (h : s.head? ≠ some '/') :
    blankFrom .block (inner ++ s) = inner.map cover ++ blankFrom .block s := by
  induction inner with
  | nil => rfl
  | cons c inner ih =>
    rw [List.infix_cons_iff, not_or] at noEnd
    rw [List.cons_append, blankFrom_block_cons, ih noEnd.2, List.map_cons, List.cons_append]
    rintro rfl
    cases inner with
    | nil => exact h
    | cons d inner =>
      intro slash
      obtain rfl : d = '/' := Option.some.inj slash
      exact noEnd.1 ⟨inner, rfl⟩

/-- **A piece is blanked on its own.** -/
theorem blank_text_append {p : Piece} (h : p.Precedes s) :
    blank (p.text ++ s) = p.blanked ++ blank s := by
  cases p with
  | code c =>
    change blankFrom .code (c.1 :: s) = c.1 :: blankFrom .code s
    rw [blankFrom_code_cons h, if_neg (Bool.eq_false_iff.mp c.2)]
  | quoted mark parts ending =>
    have slash : mark.1 ≠ '/' := fun eq => absurd mark.2 (eq ▸ by decide)
    change blankFrom .code (mark.1 :: (_ ++ s)) = mark.1 :: (_ ++ blankFrom .code s)
    rw [blankFrom_code_cons (fun eq => absurd eq slash), if_pos mark.2, List.append_assoc,
      blankFrom_quotedParts, blankFrom_quoteEnd mark.2 h, List.append_assoc]
  | line inner =>
    change blankFrom .code ('/' :: '/' :: (inner.1 ++ s)) = ' ' :: ' ' :: (_ ++ blankFrom .code s)
    rw [blankFrom, blankFrom_line_append inner.2, blankFrom_line_eq h]
  | block inner =>
    change blankFrom .code ('/' :: '*' :: (inner.1 ++ ['*', '/'] ++ s)) =
      ' ' :: ' ' :: (_ ++ blankFrom .code s)
    rw [blankFrom, List.append_assoc, blankFrom_block_append inner.2 (by simp), List.map_append,
      List.append_assoc]
    rfl
  | openBlock inner =>
    obtain rfl : s = [] := h
    have covered := blankFrom_block_append (s := []) inner.2 (by simp)
    change blankFrom .code ('/' :: '*' :: (inner.1 ++ [])) = ' ' :: ' ' :: (inner.1.map cover ++ [])
    rw [blankFrom, covered]
    rfl

end Piece

/-- Pieces that fit are blanked one by one. -/
theorem blank_spell_append {ps : List Piece} {s : List Char} (h : Fits ps s) :
    blank (spell ps ++ s) = ps.flatMap Piece.blanked ++ blank s := by
  induction ps with
  | nil => rfl
  | cons p ps ih =>
    rw [spell_cons, List.append_assoc, blank_text_append h.1, ih h.2, List.flatMap_cons,
      List.append_assoc]

/-- Pieces that make up a whole text are blanked one by one. -/
theorem blank_spell {ps : List Piece} (h : Fits ps []) :
    blank (spell ps) = ps.flatMap Piece.blanked := by
  have whole := blank_spell_append h
  rwa [List.append_nil, blank_nil, List.append_nil] at whole

/-! ## Every text -/

/-- The text goes on from the mode with the rest of a piece, and further pieces that fit. -/
def Mode.Spelled : Mode → List Char → Prop
  | code, s => ∃ ps, Fits ps [] ∧ spell ps = s
  | quoted mark, s => ∃ (parts : List (QuotedPart mark)) (ending : QuoteEnd) (ps : List Piece),
      Fits ps [] ∧ ending.Precedes (spell ps) ∧
        parts.flatMap QuotedPart.text ++ (ending.text mark ++ spell ps) = s
  | line, s => ∃ (inner : LineText) (ps : List Piece),
      Fits ps [] ∧ (∀ d ∈ (spell ps).head?, d = '\n') ∧ inner.1 ++ spell ps = s
  | block, s => (∃ inner : BlockText, inner.1 = s) ∨
      ∃ (inner : BlockText) (ps : List Piece), Fits ps [] ∧ inner.1 ++ ['*', '/'] ++ spell ps = s

section Spelled

variable {c mark : Char} {s : List Char}

/-- A line comment goes on from code. -/
theorem Mode.Spelled.openLine (h : line.Spelled s) : code.Spelled ('/' :: '/' :: s) := by
  obtain ⟨inner, ps, fits, ends, rfl⟩ := h
  refine ⟨.line inner :: ps, ⟨?_, fits⟩, rfl⟩
  rw [List.append_nil]
  exact ends

theorem Mode.Spelled.openBlock (h : block.Spelled s) : code.Spelled ('/' :: '*' :: s) := by
  obtain ⟨inner, rfl⟩ | ⟨inner, ps, fits, rfl⟩ := h
  · exact ⟨[.openBlock inner], ⟨rfl, trivial⟩, by simp [Piece.text]⟩
  · exact ⟨.block inner :: ps, ⟨trivial, fits⟩, by simp [Piece.text]⟩

theorem Mode.Spelled.openQuote (quote : isQuote c = true) (h : (quoted c).Spelled s) :
    code.Spelled (c :: s) := by
  obtain ⟨parts, ending, ps, fits, ends, rfl⟩ := h
  refine ⟨.quoted ⟨c, quote⟩ parts ending :: ps, ⟨?_, fits⟩, by simp [Piece.text]⟩
  rw [List.append_nil]
  exact ends

theorem Mode.Spelled.codeChar (noQuote : isQuote c = false) (noLine : ∀ t, s = '/' :: t → c ≠ '/')
    (noBlock : ∀ t, s = '*' :: t → c ≠ '/') (h : code.Spelled s) : code.Spelled (c :: s) := by
  obtain ⟨ps, fits, rfl⟩ := h
  refine ⟨.code ⟨c, noQuote⟩ :: ps, ⟨fun slash d hd => ?_, fits⟩, rfl⟩
  rw [List.append_nil] at hd
  obtain ⟨t, ht⟩ := List.head?_eq_some_iff.mp hd
  constructor
  · rintro rfl
    exact noLine t ht slash
  · rintro rfl
    exact noBlock t ht slash

theorem Mode.Spelled.escape (h : (if c = '\n' then code else quoted mark).Spelled s) :
    (quoted mark).Spelled ('\\' :: c :: s) := by
  split at h
  · next feed =>
    obtain ⟨ps, fits, rfl⟩ := h
    exact ⟨[], .lineFeed true, ps, fits, trivial, by rw [feed]; rfl⟩
  · next noFeed =>
    obtain ⟨parts, ending, ps, fits, ends, rfl⟩ := h
    exact ⟨.escaped ⟨c, noFeed⟩ :: parts, ending, ps, fits, ends, rfl⟩

theorem Mode.Spelled.quotedChar (noEscape : ∀ d t, s = d :: t → c ≠ '\\')
    (h : (if c = mark ∨ c = '\n' then code else quoted mark).Spelled s) :
    (quoted mark).Spelled (c :: s) := by
  split at h
  · next closes =>
    obtain ⟨ps, fits, rfl⟩ := h
    rcases closes with rfl | rfl
    · exact ⟨[], .mark, ps, fits, trivial, rfl⟩
    · exact ⟨[], .lineFeed false, ps, fits, trivial, rfl⟩
  · next goesOn =>
    obtain ⟨noMark, noFeed⟩ := not_or.mp goesOn
    by_cases backslash : c = '\\'
    · -- A backslash that protects no character ends the text.
      cases s with
      | nil => exact ⟨[], .textEnd true, [], trivial, rfl, by rw [backslash]; rfl⟩
      | cons d t => exact absurd backslash (noEscape d t rfl)
    · obtain ⟨parts, ending, ps, fits, ends, rfl⟩ := h
      exact ⟨.plain ⟨c, noMark, backslash, noFeed⟩ :: parts, ending, ps, fits, ends, rfl⟩

theorem Mode.Spelled.lineFeed (h : code.Spelled s) : line.Spelled ('\n' :: s) := by
  obtain ⟨ps, fits, rfl⟩ := h
  have first : ∀ d ∈ (spell (.code ⟨'\n', rfl⟩ :: ps)).head?, d = '\n' := by
    rintro d ⟨⟩
    rfl
  exact ⟨⟨[], List.not_mem_nil⟩, .code ⟨'\n', rfl⟩ :: ps, ⟨nofun, fits⟩, first, rfl⟩

theorem Mode.Spelled.lineChar (noFeed : c ≠ '\n') (h : line.Spelled s) : line.Spelled (c :: s) := by
  obtain ⟨inner, ps, fits, ends, rfl⟩ := h
  have inLine : '\n' ∉ c :: inner.1 := List.not_mem_cons_of_ne_of_not_mem noFeed.symm inner.2
  exact ⟨⟨c :: inner.1, inLine⟩, ps, fits, ends, rfl⟩

/-- A comment that does not end with the character `c` can hold it. -/
theorem Mode.Spelled.blockChar (goesOn : ∀ t, s = '/' :: t → c ≠ '*') (h : block.Spelled s) :
    block.Spelled (c :: s) := by
  have noEnd : ∀ (inner : BlockText) t, s = inner.1 ++ t → ¬ ['*', '/'] <:+: c :: inner.1 := by
    rintro ⟨inner, noEnd⟩ t rfl within
    rcases List.infix_cons_iff.mp within with ⟨rest, hrest⟩ | within
    · obtain ⟨rfl, rfl⟩ := List.cons.inj hrest
      exact goesOn (rest ++ t) rfl rfl
    · exact noEnd within
  obtain ⟨inner, rfl⟩ | ⟨inner, ps, fits, rfl⟩ := h
  · exact .inl ⟨⟨c :: inner.1, noEnd inner [] (List.append_nil _).symm⟩, rfl⟩
  · exact .inr ⟨⟨c :: inner.1, noEnd inner _ (List.append_assoc _ _ _)⟩, ps, fits, rfl⟩

end Spelled

theorem Mode.spelled (mode : Mode) (s : List Char) : mode.Spelled s := by
  fun_induction blankFrom mode s with
  | case1 mode =>
    cases mode with
    | code => exact ⟨[], trivial, rfl⟩
    | quoted mark => exact ⟨[], .textEnd false, [], trivial, rfl, rfl⟩
    | line => exact ⟨⟨[], List.not_mem_nil⟩, [], trivial, fun d hd => (by cases hd), rfl⟩
    | block => exact .inl ⟨⟨[], by simp⟩, rfl⟩
  | case2 s ih => exact ih.openLine
  | case3 s ih => exact ih.openBlock
  | case4 c s noLine noBlock ih =>
    by_cases quote : isQuote c = true
    · rw [if_pos quote] at ih
      exact ih.openQuote quote
    · rw [if_neg quote] at ih
      exact ih.codeChar (Bool.eq_false_iff.mpr quote) (fun t ht hc => noLine t hc ht)
        fun t ht hc => noBlock t hc ht
  | case5 mark c s ih => exact ih.escape
  | case6 mark c s noEscape ih => exact ih.quotedChar fun d t ht hc => noEscape d t hc ht
  | case7 s ih => exact ih.lineFeed
  | case8 c s noFeed ih => exact ih.lineChar noFeed
  | case9 s ih =>
    obtain ⟨ps, fits, rfl⟩ := ih
    exact .inr ⟨⟨[], by simp⟩, ps, fits, rfl⟩
  | case10 c s goesOn ih => exact ih.blockChar fun t ht hc => goesOn t hc ht

/-- Every text is made up of pieces that fit. -/
theorem exists_fits (s : List Char) : ∃ ps, Fits ps [] ∧ spell ps = s := Mode.spelled .code s

/-- **Blanking keeps code and quoted spans, and covers comments.** It does so for all pieces that
fit, and every text is made up of such pieces. What follows a piece that has ended, be it a quoted
span or a comment that ends with its line, is blanked as a text of its own. -/
theorem blank_pieces :
    (∀ ps, Fits ps [] → blank (spell ps) = ps.flatMap Piece.blanked) ∧
      (∀ s, ∃ ps, Fits ps [] ∧ spell ps = s) ∧
      ∀ ps s, Fits ps s → blank (spell ps ++ s) = ps.flatMap Piece.blanked ++ blank s :=
  ⟨fun _ h => blank_spell h, exists_fits, fun _ _ h => blank_spell_append h⟩

/-- Markers in a quoted span, quotes in comments, a quoted span that ends with its line behind a
backslash, and a comment that the slash behind its marker does not close. -/
def mixedPieces : List Piece :=
  [.quoted ⟨'"', rfl⟩ [.plain ⟨'/', by decide⟩, .plain ⟨'*', by decide⟩, .escaped ⟨'"', by decide⟩,
      .plain ⟨'/', by decide⟩, .plain ⟨'/', by decide⟩] .mark,
    .block ⟨"' // *".toList, by decide⟩,
    .quoted ⟨'\'', rfl⟩ [.plain ⟨'i', by decide⟩, .plain ⟨'t', by decide⟩] (.lineFeed true),
    .line ⟨"\" /*".toList, by decide⟩, .code ⟨'\n', rfl⟩,
    .code ⟨'a', rfl⟩, .code ⟨'/', rfl⟩, .code ⟨'b', rfl⟩, .openBlock ⟨"/\n'".toList, by decide⟩]

theorem blank_pieces_mixed :
    Fits mixedPieces [] ∧
      spell mixedPieces = "\"/*\\\"//\"/*' // **/'it\\\n//\" /*\na/b/*/\n'".toList ∧
      blank (spell mixedPieces) = "\"/*\\\"//\"          'it\\\n      \na/b   \n ".toList := by
  have fits : Fits mixedPieces [] := by decide
  exact ⟨fits, by decide, (blank_pieces.1 mixedPieces fits).trans (by decide)⟩

end ShaderInterface.Comment
