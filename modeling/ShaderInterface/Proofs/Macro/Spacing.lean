import ShaderInterface.Proofs.Macro.Inlining
import ShaderInterface.Proofs.Text.Squeeze

/-!
# Blanks in an expression

How many blanks stand between the tokens of an expression, and which, makes no difference to an
integer value (`eval_collapse_eq_ok_int_iff`). A text may be different: its own blanks are part of
it. An expression with an integer value has no text in it, and then it spells the same tokens before
and after it is collapsed (`Spells.collapse`, `spells_of_collapse`).
-/

namespace ShaderInterface.Macro

open Text

variable {s w t : List Char} {tokens : List Token} {token : Token}

/-- A run of characters that are not blank at the front of a collapsed text stands at the front of
the text. -/
theorem exists_of_collapse_eq_append (word : ∀ c ∈ w, isBlank c = false)
    (h : collapse s = w ++ t) : ∃ s', s = w ++ s' ∧ collapse s' = t := by
  induction w generalizing s with
  | nil => exact ⟨s, rfl, h⟩
  | cons c w ih =>
    obtain ⟨first, others⟩ := List.forall_mem_cons.mp word
    cases s with
    | nil => cases h
    | cons d s =>
      cases blank : isBlank d with
      | true =>
        rw [collapse, collapseFrom, if_pos blank, if_neg Bool.false_ne_true] at h
        obtain rfl := (List.cons.inj h).1
        cases first
      | false =>
        rw [collapse_cons_of_not_isBlank blank] at h
        obtain ⟨rfl, more⟩ := List.cons.inj h
        obtain ⟨s', rfl, hs⟩ := ih others more
        exact ⟨s', rfl, hs⟩

theorem isBoundary_head_collapse (s : List Char) :
    isBoundary (collapse s).head? = isBoundary s.head? := by
  cases s with
  | nil => rfl
  | cons c s =>
    cases blank : isBlank c with
    | true =>
      rw [collapse, collapseFrom, if_pos blank, if_neg Bool.false_ne_true]
      exact (isBoundary_of_isBlank rfl).trans (isBoundary_of_isBlank blank).symm
    | false => rw [collapse_cons_of_not_isBlank blank, List.head?_cons, List.head?_cons]

theorem OperandText.not_isBlank (h : OperandText w token) : ∀ c ∈ w, isBlank c = false := by
  intro c hc
  by_contra blank
  have word := h.isWordChar c hc
  rw [not_isWordChar_of_isBlank (by simpa using blank)] at word
  cases word

theorem not_isBlank_of_ofChar? {c : Char} (h : Token.ofChar? c = some token) : isBlank c = false :=
  (plain_of_mem_symbols (mem_symbols_of_ofChar? h)).1

/-- Blanks spell nothing. -/
theorem spells_cons_iff_of_isBlank {c : Char} (h : isBlank c) :
    Spells (c :: s) tokens ↔ Spells s tokens := by
  refine ⟨fun spells => ?_, .blank h⟩
  generalize heq : c :: s = text at spells
  cases spells with
  | nil => cases heq
  | blank _ more =>
    cases heq
    exact more
  | symbol symbol =>
    cases heq
    rw [not_isBlank_of_ofChar? symbol] at h
    cases h
  | word word =>
    obtain ⟨d, w, rfl⟩ := List.exists_cons_of_ne_nil word.ne_nil
    cases heq
    rw [word.not_isBlank c List.mem_cons_self] at h
    cases h

theorem spells_of_dropWhile (h : Spells (s.dropWhile isBlank) tokens) : Spells s tokens := by
  induction s with
  | nil => exact h
  | cons c s ih =>
    rw [List.dropWhile_cons] at h
    split at h
    · next blank => exact .blank blank (ih h)
    · exact h

/-- A text that stands behind a blank spells the same without its first blanks. -/
theorem spells_collapse_iff_collapseFrom (s : List Char) :
    Spells (collapse s) tokens ↔ Spells (collapseFrom true s) tokens := by
  cases s with
  | nil => exact Iff.rfl
  | cons c s =>
    rw [collapse, collapseFrom, collapseFrom]
    split
    · exact spells_cons_iff_of_isBlank rfl
    · exact Iff.rfl

theorem Spells.collapse (h : Spells s tokens) : Spells (collapse s) tokens := by
  induction h with
  | nil => exact .nil
  | blank blank _ ih =>
    rw [spells_collapse_iff_collapseFrom, collapseFrom, if_pos blank, if_pos rfl]
    exact (spells_collapse_iff_collapseFrom _).mp ih
  | symbol symbol _ ih =>
    rw [collapse_cons_of_not_isBlank (not_isBlank_of_ofChar? symbol)]
    exact .symbol symbol ih
  | word word ends _ ih =>
    rw [collapse_word_append word.not_isBlank]
    exact .word word ((isBoundary_head_collapse _).trans ends) ih

theorem spells_of_collapse (h : Spells (collapse s) tokens) : Spells s tokens := by
  generalize heq : Text.collapse s = text at h
  induction h generalizing s with
  | nil =>
    cases s with
    | nil => exact .nil
    | cons c s =>
      rw [Text.collapse, collapseFrom] at heq
      split at heq <;> cases heq
  | @blank c text tokens blank _ ih =>
    cases s with
    | nil => cases heq
    | cons d s =>
      rw [Text.collapse, collapseFrom] at heq
      split at heq
      · next first =>
        rw [if_neg Bool.false_ne_true, collapseFrom_true] at heq
        obtain ⟨-, rfl⟩ := List.cons.inj heq
        exact .blank first (spells_of_dropWhile (ih rfl))
      · next first =>
        obtain ⟨rfl, -⟩ := List.cons.inj heq
        exact absurd blank first
  | symbol symbol _ ih =>
    obtain ⟨s, rfl, hs⟩ := exists_of_collapse_eq_append
      (List.forall_mem_singleton.mpr (not_isBlank_of_ofChar? symbol)) heq
    exact .symbol symbol (ih hs)
  | word word ends _ ih =>
    obtain ⟨s, rfl, hs⟩ := exists_of_collapse_eq_append word.not_isBlank heq
    exact .word word ((isBoundary_head_collapse s).symm.trans (hs ▸ ends)) (ih hs)

/-- **The blanks of an expression decide on no integer value.** -/
theorem eval_collapse_eq_ok_int_iff {names : Names} {n : Int} :
    eval names (collapse s) = .ok (.int n) ↔ eval names s = .ok (.int n) := by
  constructor <;> intro h
  all_goals
    obtain ⟨tokens, read, e, derives, nest, value⟩ := eval_eq_ok_iff_worth.mp h
    have spells := spells_of_lex read (derives.isPlain value) derives.isChain
    refine eval_eq_ok_iff_worth.mpr ⟨tokens, lex_eq_ok_of_spells ?_, e, derives, nest, value⟩
  · exact spells_of_collapse spells
  · exact spells.collapse

end ShaderInterface.Macro
