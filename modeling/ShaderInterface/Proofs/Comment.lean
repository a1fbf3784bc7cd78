import Mathlib.Data.List.Forall2
import ShaderInterface.Comment

/-!
# What blanking keeps

Blanking keeps each character where it stands or writes a space over it, and it writes none over a
line feed (`forall₂_blank`). So whatever stands in the blanked text and is no space stands at the
same place of the written text, on the same line (`exists_eq_append_of_blank_eq`).
-/

namespace ShaderInterface.Comment

/-! ## One character -/

theorem blank_nil : blank [] = [] := by simp [blank, blankFrom]

section Step

variable {c mark : Char} {s : List Char}

theorem blankFrom_code_cons (noMarker : c = '/' → ∀ d ∈ s.head?, d ≠ '/' ∧ d ≠ '*') :
    blankFrom .code (c :: s) = c :: blankFrom (if isQuote c then .quoted c else .code) s := by
  rw [blankFrom]
  · rintro s' rfl rfl
    exact (noMarker rfl '/' rfl).1 rfl
  · rintro s' rfl rfl
    exact (noMarker rfl '*' rfl).2 rfl

theorem blankFrom_quoted_cons (h : c ≠ '\\') :
    blankFrom (.quoted mark) (c :: s) =
      c :: blankFrom (if c = mark ∨ c = '\n' then .code else .quoted mark) s := by
  rw [blankFrom]
  exact fun _ _ hc _ => h hc

end Step

/-! ## Overwriting -/

/-- A character is left as it is, or a space is written over what is no line feed. -/
def Overwrites (written blanked : Char) : Prop :=
  blanked = written ∨ (blanked = ' ' ∧ written ≠ '\n')

theorem Overwrites.refl (c : Char) : Overwrites c c := .inl rfl

theorem Overwrites.space {c : Char} (h : c ≠ '\n') : Overwrites c ' ' := .inr ⟨rfl, h⟩

theorem forall₂_blankFrom (mode : Mode) (s : List Char) :
    List.Forall₂ Overwrites s (blankFrom mode s) := by
  fun_induction blankFrom mode s with
  | case1 => exact .nil
  | case2 s ih => exact .cons (.space (by decide)) (.cons (.space (by decide)) ih)
  | case3 s ih => exact .cons (.space (by decide)) (.cons (.space (by decide)) ih)
  | case4 c s _ _ ih => exact .cons (.refl c) ih
  | case5 mark c s ih => exact .cons (.refl _) (.cons (.refl c) ih)
  | case6 mark c s _ ih => exact .cons (.refl c) ih
  | case7 s ih => exact .cons (.refl _) ih
  | case8 c s h ih => exact .cons (.space h) ih
  | case9 s ih => exact .cons (.space (by decide)) (.cons (.space (by decide)) ih)
  | case10 c s _ ih =>
    refine .cons ?_ ih
    split
    · exact .refl c
    · next h => exact .space h

/-- Blanking overwrites characters in place. -/
theorem forall₂_blank (s : List Char) : List.Forall₂ Overwrites s (blank s) :=
  forall₂_blankFrom .code s

theorem count_newline_of_forall₂ {s t : List Char} (h : List.Forall₂ Overwrites s t) :
    s.count '\n' = t.count '\n' := by
  induction h with
  | nil => rfl
  | @cons c d s t hcd _ ih =>
    rcases hcd with rfl | ⟨rfl, hc⟩
    · rw [List.count_cons, List.count_cons, ih]
    · rw [List.count_cons_of_ne hc, List.count_cons_of_ne (by decide), ih]

/-- What stands in the blanked text and is no space stands at the same place of the written text:
behind as many characters, and as many line feeds. -/
theorem exists_eq_append_of_blank_eq {s before after : List Char} {c : Char} (hc : c ≠ ' ')
    (h : blank s = before ++ c :: after) :
    ∃ a b, s = a ++ c :: b ∧ a.length = before.length ∧ a.count '\n' = before.count '\n' := by
  have cut := forall₂_blank s
  rw [h] at cut
  have front := List.forall₂_take_append s before (c :: after) cut
  have back := List.forall₂_drop_append s before (c :: after) cut
  obtain ⟨d, b, hd, -, hb⟩ := List.forall₂_cons_right_iff.mp back
  obtain rfl : c = d := hd.resolve_right fun h => hc h.1
  refine ⟨s.take before.length, b, ?_, front.length_eq, count_newline_of_forall₂ front⟩
  rw [← hb, List.take_append_drop]

end ShaderInterface.Comment
