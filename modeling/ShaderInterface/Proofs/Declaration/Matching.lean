import Mathlib.Data.List.Forall2
import ShaderInterface.Proofs.Declaration.Grammar

/-!
# Statements in a text

The statements with a word in a text are found from left to right, and none begins before the one
in front of it ends. `Spells` says so without the reader: every text spells a list of statements
(`exists_spells`), and these are the statements that are read (`forall₂_statementsFrom`).
-/

namespace ShaderInterface.Declaration

open Text

variable {word s rest : List Char} {previous : Option Char} {st : Statement} {ws : List Spelling}

/-- The statements with a word that a text spells, from left to right. `previous` is the character
in front of the text. -/
inductive Spells (word : List Char) : Option Char → List Char → List Spelling → Prop where
  | nil {previous : Option Char} : Spells word previous [] []
  /-- Where no statement begins, one may begin behind the first character. -/
  | skip {previous : Option Char} {c : Char} {s : List Char} {ws : List Spelling}
      (none : isBoundary previous → ∀ (w : Spelling) rest, c :: s ≠ word ++ (w.text ++ rest))
      (later : Spells word (some c) s ws) : Spells word previous (c :: s) ws
  /-- Where a statement begins, the next may begin behind its semicolon. -/
  | take {previous : Option Char} {w : Spelling} {rest : List Char} {ws : List Spelling}
      (boundary : isBoundary previous) (later : Spells word (some ';') rest ws) :
      Spells word previous (word ++ (w.text ++ rest)) (w :: ws)

theorem statementsFrom_of_none {c : Char}
    (h : isBoundary previous → statement? word (c :: s) = none) :
    statementsFrom word previous (c :: s) = statementsFrom word (some c) s := by
  have none : (if isBoundary previous then statement? word (c :: s) else none) = none := by
    split
    · next boundary => exact h boundary
    · rfl
  conv_lhs => unfold statementsFrom
  split
  · next found =>
    rw [none] at found
    cases found
  · rfl

theorem statementsFrom_of_some (boundary : isBoundary previous) (h : statement? word s = some st) :
    statementsFrom word previous s = st :: statementsFrom word (some ';') st.rest := by
  cases s with
  | nil =>
    have := statement?_length_lt h
    cases this
  | cons c s =>
    conv_lhs => unfold statementsFrom
    split
    · next found =>
      rw [if_pos boundary, h] at found
      cases found
      rfl
    · next found =>
      rw [if_pos boundary, h] at found
      cases found

theorem statement?_eq_none_iff :
    statement? word s = none ↔ ∀ (w : Spelling) rest, s ≠ word ++ (w.text ++ rest) := by
  rw [Option.eq_none_iff_forall_ne_some]
  constructor
  · rintro h w rest rfl
    exact h (w.statement rest) (statement?_eq_some_iff.mpr ⟨w, rfl, rfl⟩)
  · rintro h st hst
    obtain ⟨w, hs, -⟩ := statement?_eq_some_iff.mp hst
    exact h w st.rest hs

/-- The statements that are read are those that the text spells. -/
theorem forall₂_statementsFrom (h : Spells word previous s ws) :
    List.Forall₂ (fun w st => st = w.statement st.rest) ws (statementsFrom word previous s) := by
  induction h with
  | nil =>
    rw [statementsFrom]
    exact .nil
  | skip none _ ih =>
    rw [statementsFrom_of_none fun boundary => statement?_eq_none_iff.mpr (none boundary)]
    exact ih
  | @take previous w rest ws boundary _ ih =>
    have found : statement? word (word ++ (w.text ++ rest)) = some (w.statement rest) :=
      statement?_eq_some_iff.mpr ⟨w, rfl, rfl⟩
    rw [statementsFrom_of_some boundary found]
    exact .cons rfl ih

/-- Every text spells a list of statements. -/
theorem exists_spells (word : List Char) (previous : Option Char) (s : List Char) :
    ∃ ws, Spells word previous s ws := by
  fun_induction statementsFrom word previous s with
  | case1 previous => exact ⟨[], .nil⟩
  | case2 previous c s st hst hle ih =>
    obtain ⟨boundary, hst⟩ := Option.ite_none_right_eq_some.mp hst
    obtain ⟨w, hs, -⟩ := statement?_eq_some_iff.mp hst
    obtain ⟨ws, later⟩ := ih
    exact ⟨w :: ws, hs ▸ .take boundary later⟩
  | case3 previous c s hst ih =>
    obtain ⟨ws, later⟩ := ih
    refine ⟨ws, .skip (fun boundary => ?_) later⟩
    exact statement?_eq_none_iff.mp (by simpa [boundary] using hst)

end ShaderInterface.Declaration
