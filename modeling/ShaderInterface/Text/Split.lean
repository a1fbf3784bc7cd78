/-!
# Pieces of a text between separators

`split sep s` cuts `s` at every `sep`; joining the pieces with `sep` gives `s` back
(`intercalate_split`), there is one piece more than separators (`length_split`), and no piece
holds the separator (`not_mem_of_mem_split`). Cut at line feeds, the pieces are the lines.
-/

namespace ShaderInterface.Text

/-- The piece before the first `sep`, and the pieces after it. -/
def firstAndRest (sep : Char) : List Char → List Char × List (List Char)
  | [] => ([], [])
  | c :: s =>
    let (piece, pieces) := firstAndRest sep s
    if c = sep then ([], piece :: pieces) else (c :: piece, pieces)

/-- The pieces of the text between the separators, at least one. -/
def split (sep : Char) (s : List Char) : List (List Char) :=
  let (piece, pieces) := firstAndRest sep s
  piece :: pieces

/-- The lines of the text, without the line feeds that end them. -/
def lines (s : List Char) : List (List Char) := split '\n' s

/-- Lines put together with a line feed between each two. -/
def unlines (ls : List (List Char)) : List Char := ['\n'].intercalate ls

theorem split_nil (sep : Char) : split sep [] = [[]] := rfl

theorem split_cons_self (sep : Char) (s : List Char) :
    split sep (sep :: s) = [] :: split sep s := by
  simp [split, firstAndRest]

theorem split_cons_of_ne {sep c : Char} (h : c ≠ sep) (s : List Char) :
    split sep (c :: s) = (c :: (firstAndRest sep s).1) :: (firstAndRest sep s).2 := by
  simp [split, firstAndRest, h]

theorem split_ne_nil (sep : Char) (s : List Char) : split sep s ≠ [] := by simp [split]

theorem length_split (sep : Char) (s : List Char) : (split sep s).length = s.count sep + 1 := by
  induction s with
  | nil => rfl
  | cons c s ih =>
    simp only [split, List.length_cons, Nat.add_right_cancel_iff] at ih ⊢
    by_cases h : c = sep <;> simp [firstAndRest, h, ih]

theorem not_mem_of_mem_split {sep : Char} {s piece : List Char} (h : piece ∈ split sep s) :
    sep ∉ piece := by
  induction s generalizing piece with
  | nil => simp [split, firstAndRest] at h; simp [h]
  | cons c s ih => grind [split, firstAndRest]

theorem intercalate_split (sep : Char) (s : List Char) : [sep].intercalate (split sep s) = s := by
  induction s with
  | nil => rfl
  | cons c s ih =>
    by_cases h : c = sep
    · subst h
      rw [split_cons_self]
      simpa [split, List.intercalate, List.intersperse] using ih
    · rw [split_cons_of_ne h]
      simp only [split] at ih
      cases hr : (firstAndRest sep s).2 with
      | nil => simpa [List.intercalate, hr] using ih
      | cons p ps => simpa [List.intercalate, hr] using ih

theorem unlines_lines (s : List Char) : unlines (lines s) = s := intercalate_split '\n' s

end ShaderInterface.Text
