import ShaderInterface.Number.Layout
import ShaderInterface.Number.Reader

/-!
# Macro values

A macro stands for a 64-bit integer, a float or a text. `Literal.render` is the text put in place
of the macro, `Literal.combine` applies a binary operator. Integer operations are the exact ones
and fail where their result, or the quotient that belongs to a remainder, does not fit 64 bits.
-/

namespace ShaderInterface.Macro

open Number

/-- The value of a macro. -/
inductive Literal where
  | int (value : Int)
  | float (value : Float)
  | str (value : String)

/-- A binary operator. -/
inductive Op where
  | add
  | sub
  | mul
  | div
  | rem
  deriving DecidableEq, Repr

/-- The character of an operator. -/
def Op.symbol : Op → Char
  | .add => '+'
  | .sub => '-'
  | .mul => '*'
  | .div => '/'
  | .rem => '%'

/-- The operator with the given character. -/
def Op.ofChar? : Char → Option Op
  | '+' => some .add
  | '-' => some .sub
  | '*' => some .mul
  | '/' => some .div
  | '%' => some .rem
  | _ => none

/-- An operator of a sum. -/
def Op.isAdditive : Op → Bool
  | .add | .sub => true
  | _ => false

/-- Why an operator cannot be applied. -/
inductive OpFault where
  /-- An integer operation has no result that fits. -/
  | arithmetic (a : Int) (op : Op) (b : Int)
  /-- The operator is not defined for texts. -/
  | text (op : Op)
  /-- The least integer has no negative. -/
  | negationOverflow
  /-- A text has no negative. -/
  | negatedText
  deriving DecidableEq, Repr

/-- The exact result of an integer operation, if it fits 64 bits. Division goes toward zero, and a
remainder exists where the quotient does. -/
def Op.onInts? (op : Op) (a b : Int) : Option Int :=
  match op with
  | .add => fit (a + b)
  | .sub => fit (a - b)
  | .mul => fit (a * b)
  | .div => if b = 0 then none else fit (a.tdiv b)
  | .rem => if b = 0 then none else (fit (a.tdiv b)).map fun _ => a.tmod b
where
  /-- The integer if 64 bits hold it. -/
  fit (n : Int) : Option Int := if inInt64 n then some n else none

/-- The result of an operation on floats. -/
def Op.onFloats (op : Op) (x y : Float) : Float :=
  match op with
  | .add => x + y
  | .sub => x - y
  | .mul => x * y
  | .div => x / y
  | .rem => floatRem x y

namespace Literal

/-- Floats are written positionally from `0.0001` to below `10 ^ 16`, and with an exponent
elsewhere. -/
def layout : Layout where
  plainFrom := -4
  plainTo := 15
  nan := "NaN"
  infinity := "inf"

/-- The text put in place of a macro with this value. -/
def render : Literal → String
  | int n => toString n
  | float x => layout.write x
  | str s => s

/-- The value as the length of an array: an integer from zero that 32 bits hold. -/
def count? : Literal → Option Nat
  | int n => if 0 ≤ n ∧ n < 2 ^ 32 then some n.toNat else none
  | _ => none

/-- The value as the length of an array with elements. -/
def positive? (v : Literal) : Option Nat := v.count?.filter (0 < ·)

/-- A number as a float. -/
def toFloat? : Literal → Option Float
  | int n => some (Float.ofInt n)
  | float x => some x
  | str _ => none

/-- The result of a binary operator. Two integers give an integer; a text can be added to, which
puts the renderings together; other operands are taken as floats. -/
def combine (op : Op) (a b : Literal) : Except OpFault Literal :=
  match a, b with
  | int a, int b => match op.onInts? a b with
    | some n => .ok (int n)
    | none => .error (.arithmetic a op b)
  | _, _ => match a.toFloat?, b.toFloat? with
    | some x, some y => .ok (float (op.onFloats x y))
    | _, _ => if op = .add then .ok (str (a.render ++ b.render)) else .error (.text op)

/-- The negative of a number. -/
def negate : Literal → Except OpFault Literal
  | int n => if inInt64 (-n) then .ok (int (-n)) else .error .negationOverflow
  | float x => .ok (float (-x))
  | str _ => .error .negatedText

/-- Floats have no decidable equality, but whether a result is a given integer can be decided. -/
instance decidableEqOkInt {ε : Type} (x : Except ε Literal) (n : Int) :
    Decidable (x = .ok (int n)) :=
  match x with
  | .ok (int m) => decidable_of_iff (m = n) (by simp)
  | .ok (float _) | .ok (str _) | .error _ => isFalse nofun

theorem ofChar?_symbol (op : Op) : Op.ofChar? op.symbol = some op := by cases op <;> rfl

theorem inInt64_of_onInts? {op : Op} {a b n : Int} (ha : inInt64 a = true)
    (h : op.onInts? a b = some n) : inInt64 n = true := by
  have fit : ∀ {m}, Op.onInts?.fit m = some n → inInt64 n = true := by
    intro m hm
    simp only [Op.onInts?.fit, Option.ite_none_right_eq_some, Option.some.injEq] at hm
    exact hm.2 ▸ hm.1
  cases op with
  | add | sub | mul => exact fit h
  | div =>
    simp only [Op.onInts?, Option.ite_none_left_eq_some] at h
    exact fit h.2
  | rem =>
    simp only [Op.onInts?, Option.ite_none_left_eq_some, Option.map_eq_some_iff] at h
    obtain ⟨-, -, -, rfl⟩ := h
    simp only [inInt64, Bool.and_eq_true, decide_eq_true_eq] at ha ⊢
    have := Int.natAbs_tmod a b
    have := Nat.mod_le a.natAbs b.natAbs
    have := Int.tmod_nonneg (a := a) b
    have := Int.tmod_nonneg (a := -a) b
    have := Int.neg_tmod a b
    omega

end Literal

end ShaderInterface.Macro
