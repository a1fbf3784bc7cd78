import Mathlib.Data.List.Basic
import ShaderInterface.Macro.Literal

/-!
# The text of a value

The text of an integer is its decimal digits, with a sign in front where it is negative
(`toList_toString`). No number breaks a line, so that only a text can (`Literal.inLine_iff`).
-/

namespace ShaderInterface.Number

/-- The text of an integer is its digits, behind a sign where it is negative. -/
theorem toList_toString (n : Int) :
    (toString n).toList = (if n < 0 then ['-'] else []) ++ Nat.toDigits 10 n.natAbs := by
  cases n with
  | ofNat m =>
    rw [if_neg (by simp)]
    exact String.toList_ofList
  | negSucc m =>
    rw [if_pos (Int.negSucc_lt_zero m)]
    change ("-" ++ Nat.repr (m + 1)).toList = _
    rw [String.toList_append, Nat.repr]
    exact congrArg ('-' :: ·) String.toList_ofList

theorem isDigit_of_mem_toDigits {m : Nat} {c : Char} (h : c ∈ Nat.toDigits 10 m) : c.isDigit :=
  Nat.isDigit_of_mem_toDigits (by decide) (by decide) h

/-! ## Numbers stay on a line -/

theorem newline_not_mem_toDigits (m : Nat) : '\n' ∉ Nat.toDigits 10 m := by
  intro h
  exact absurd (isDigit_of_mem_toDigits h) (by decide)

theorem newline_not_mem_toString (n : Int) : '\n' ∉ (toString n).toList := by
  rw [toList_toString, List.mem_append, not_or]
  refine ⟨?_, newline_not_mem_toDigits _⟩
  split <;> simp

namespace Layout

variable {digits : List Char}

theorem newline_not_mem_plain (h : '\n' ∉ digits) (e : Int) : '\n' ∉ plain digits e := by
  have front : ∀ n, '\n' ∉ digits.take n := fun n hc => h (List.mem_of_mem_take hc)
  have back : ∀ n, '\n' ∉ digits.drop n := fun n hc => h (List.mem_of_mem_drop hc)
  unfold plain
  split
  · simp [h]
  · dsimp only
    split <;> simp [front, back]

theorem newline_not_mem_scientific (h : '\n' ∉ digits) (e : Int) : '\n' ∉ scientific digits e := by
  have exponent : '\n' ∉ 'e' :: (toString e).toList :=
    List.not_mem_cons_of_ne_of_not_mem (by decide) (newline_not_mem_toString e)
  rw [scientific, List.mem_append, List.mem_append, not_or, not_or]
  refine ⟨⟨fun hc => h (List.mem_of_mem_take hc), ?_⟩, exponent⟩
  split
  · exact List.not_mem_nil
  · exact List.not_mem_cons_of_ne_of_not_mem (by decide) fun hc => h (List.mem_of_mem_drop hc)

/-- A float is written on one line, where the layout writes what is no number on one. -/
theorem newline_not_mem_write {layout : Layout} (nan : '\n' ∉ layout.nan.toList)
    (infinity : '\n' ∉ layout.infinity.toList) (x : Float) : '\n' ∉ (layout.write x).toList := by
  have sign : ∀ negative, '\n' ∉ (write.sign negative).toList := by decide
  unfold write
  split
  · exact nan
  · simp [sign, infinity]
  · simp [sign]
  · rw [String.toList_append, String.toList_ofList, List.mem_append, not_or]
    refine ⟨sign _, ?_⟩
    unfold writeDecimal
    dsimp only
    split
    · exact newline_not_mem_plain (newline_not_mem_toDigits _) _
    · exact newline_not_mem_scientific (newline_not_mem_toDigits _) _

end Layout

end ShaderInterface.Number

namespace ShaderInterface.Macro.Literal

open Number

/-- The text of the value is on one line. -/
def InLine (v : Literal) : Prop := '\n' ∉ v.render.toList

theorem inLine_int (n : Int) : (int n).InLine := newline_not_mem_toString n

theorem inLine_float (x : Float) : (float x).InLine :=
  Layout.newline_not_mem_write (by decide) (by decide) x

/-- A value breaks a line only with a text that does. -/
theorem inLine_iff {v : Literal} : v.InLine ↔ ∀ s, v = str s → '\n' ∉ s.toList := by
  cases v with
  | int n => exact ⟨fun _ _ h => (by cases h), fun _ => inLine_int n⟩
  | float x => exact ⟨fun _ _ h => (by cases h), fun _ => inLine_float x⟩
  | str s =>
    constructor
    · rintro h _ ⟨⟩
      exact h
    · exact fun h => h s rfl

end ShaderInterface.Macro.Literal
