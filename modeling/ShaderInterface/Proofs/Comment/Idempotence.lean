import ShaderInterface.Proofs.Comment.Grammar

/-!
# Blanked texts

A blanked text has no comments left: it is made up of the pieces of the written text, with a piece
of code for each character of a comment (`Piece.bare`). These pieces fit as well, for what follows
a slash of the code is what followed it before, or a space (`Piece.Precedes.of_forall₂`). So
blanking twice is blanking once, and each character keeps its place (`blank_settled`).
-/

namespace ShaderInterface.Comment

variable {s t : List Char} {p : Piece} {ps qs : List Piece}

/-- The space or line feed that stands for a character of a comment, as a piece of code. -/
def coverPiece (c : Char) : Piece :=
  .code ⟨cover c, by rw [cover]; split <;> simp_all [isQuote]⟩

/-- The pieces that blanking makes of a piece. -/
def Piece.bare (p : Piece) : List Piece := if p.isComment then p.text.map coverPiece else [p]

theorem spell_map_coverPiece (s : List Char) : spell (s.map coverPiece) = s.map cover := by
  induction s with
  | nil => rfl
  | cons c s ih => rw [List.map_cons, spell_cons, ih]; rfl

theorem spell_bare (p : Piece) : spell p.bare = p.blanked := by
  rw [Piece.bare, Piece.blanked]
  split
  · exact spell_map_coverPiece p.text
  · exact List.append_nil _

theorem spell_flatMap_bare (ps : List Piece) :
    spell (ps.flatMap Piece.bare) = ps.flatMap Piece.blanked := by
  induction ps with
  | nil => rfl
  | cons p ps ih => rw [List.flatMap_cons, spell_append, spell_bare, ih, List.flatMap_cons]

/-- No comment is left. -/
theorem isComment_of_mem_bare {q : Piece} (h : q ∈ p.bare) : q.isComment = false := by
  rw [Piece.bare] at h
  split at h
  · obtain ⟨c, -, rfl⟩ := List.mem_map.mp h
    rfl
  · next code =>
    obtain rfl := List.mem_singleton.mp h
    exact Bool.eq_false_iff.mpr code

/-- Without comments there is nothing to blank. -/
theorem flatMap_blanked_of_code (h : ∀ p ∈ ps, p.isComment = false) :
    ps.flatMap Piece.blanked = spell ps := by
  rw [spell, List.flatMap_congr]
  intro p hp
  rw [Piece.blanked, h p hp, if_neg Bool.false_ne_true]

/-! ## The pieces of a blanked text fit -/

theorem fits_append : Fits (ps ++ qs) s ↔ Fits ps (spell qs ++ s) ∧ Fits qs s := by
  induction ps with
  | nil => exact (and_iff_right trivial).symm
  | cons p ps ih =>
    rw [List.cons_append, Fits, Fits, ih, spell_append, List.append_assoc, and_assoc]

/-- Neither a space nor a line feed begins a marker. -/
theorem fits_map_coverPiece (s t : List Char) : Fits (s.map coverPiece) t := by
  induction s with
  | nil => exact trivial
  | cons c s ih =>
    refine ⟨fun slash => ?_, ih⟩
    have noSlash : cover c ≠ '/' := by
      rw [cover]
      split <;> simp_all
    exact absurd slash noSlash

/-- A piece admits what it has admitted, overwritten. -/
theorem Piece.Precedes.of_forall₂ (h : p.Precedes s) (overwrites : List.Forall₂ Overwrites s t) :
    p.Precedes t := by
  have ended : s = [] → t = [] := by
    rintro rfl
    exact List.forall₂_nil_left_iff.mp overwrites
  -- the first character is the one it was, or a space that was no line feed
  have first : ∀ d ∈ t.head?, ∃ c ∈ s.head?, Overwrites c d := by
    intro d hd
    cases overwrites with
    | nil => cases hd
    | cons hcd _ =>
      cases hd
      exact ⟨_, rfl, hcd⟩
  cases p with
  | code c =>
    intro slash d hd
    obtain ⟨c', hc, rfl | ⟨rfl, -⟩⟩ := first d hd
    · exact h slash d hc
    · decide
  | quoted mark parts ending =>
    cases ending with
    | mark | lineFeed => trivial
    | textEnd => exact ended h
  | line inner =>
    intro d hd
    obtain ⟨c', hc, rfl | ⟨rfl, ne⟩⟩ := first d hd
    · exact h d hc
    · exact absurd (h c' hc) ne
  | block inner => trivial
  | openBlock inner => exact ended h

theorem fits_bare (h : p.Precedes s) : Fits p.bare s := by
  rw [Piece.bare]
  split
  · exact fits_map_coverPiece _ _
  · exact ⟨h, trivial⟩

/-- The pieces of a blanked text fit where those of the written text do. -/
theorem fits_flatMap_bare (h : Fits ps []) : Fits (ps.flatMap Piece.bare) [] := by
  induction ps with
  | nil => exact trivial
  | cons p ps ih =>
    have overwrites : List.Forall₂ Overwrites (spell ps) (spell (ps.flatMap Piece.bare)) := by
      rw [spell_flatMap_bare, ← blank_spell h.2]
      exact forall₂_blank (spell ps)
    have follows : p.Precedes (spell ps) := by simpa using h.1
    rw [List.flatMap_cons, fits_append, List.append_nil]
    exact ⟨fits_bare (follows.of_forall₂ overwrites), ih h.2⟩

/-- A blanked text is made up of pieces that are no comments. -/
theorem exists_fits_blank (s : List Char) :
    ∃ ps, Fits ps [] ∧ spell ps = blank s ∧ ∀ p ∈ ps, p.isComment = false := by
  obtain ⟨ps, fits, rfl⟩ := exists_fits s
  refine ⟨ps.flatMap Piece.bare, fits_flatMap_bare fits, ?_, ?_⟩
  · rw [spell_flatMap_bare, blank_spell fits]
  · intro q hq
    obtain ⟨p, -, hq⟩ := List.mem_flatMap.mp hq
    exact isComment_of_mem_bare hq

/-- **Blanking keeps every character in its place, and leaves nothing to blank.** Where a character
does not stay it was no line feed, and a space stands for it. The blanked text is made up of code
and quoted spans: no marker and no quote comes about between what is left. -/
theorem blank_settled (s : List Char) :
    (blank s).length = s.length ∧
      (∀ (i : Nat) (c : Char), s[i]? = some c →
        (blank s)[i]? = some c ∨ ((blank s)[i]? = some ' ' ∧ c ≠ '\n')) ∧
      blank (blank s) = blank s ∧
      ∃ ps, Fits ps [] ∧ spell ps = blank s ∧ ∀ p ∈ ps, p.isComment = false := by
  obtain ⟨ps, fits, text, code⟩ := exists_fits_blank s
  refine ⟨length_blank s, fun i c hc => ?_, ?_, ps, fits, text, code⟩
  · obtain ⟨hi, rfl⟩ := List.getElem?_eq_some_iff.mp hc
    have hi' : i < (blank s).length := by rwa [length_blank]
    have overwrites : Overwrites s[i] (blank s)[i] := (forall₂_blank s).get hi hi'
    rw [List.getElem?_eq_getElem hi']
    exact overwrites.imp (congrArg some) fun h => ⟨congrArg some h.1, h.2⟩
  · rw [← text, blank_spell fits, flatMap_blanked_of_code code]

end ShaderInterface.Comment
