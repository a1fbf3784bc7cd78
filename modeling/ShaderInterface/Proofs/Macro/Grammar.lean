import ShaderInterface.Macro.Expr

/-!
# The grammar of macro expressions

What an expression is and what it is worth, said without a reader. `Derives` is the grammar over
token lists, in which both levels of binary operators lean to the left:

    expr    := expr ('+' | '-') term | term
    term    := term ('*' | '/' | '%') unary | unary
    unary   := ('+' | '-') unary | primary
    primary := literal | name | '(' expr ')'

`Expr.nesting` counts the signs and parentheses around a token, and `Expr.HasValue` gives an
expression its value: exact arithmetic on integers (`Exact`), concatenation of renderings next to
a text, and float arithmetic elsewhere (`Applies`). An expression has no value as soon as a part
of it has none.
-/

namespace ShaderInterface.Macro

open Number

/-! ## Expressions and their derivations -/

/-- An expression as it is written. -/
inductive Expr where
  | literal (value : Literal)
  | name (spelling : String)
  | parens (inner : Expr)
  | plus (operand : Expr)
  | minus (operand : Expr)
  | binary (op : Op) (left right : Expr)

namespace Expr

/-- How many signs and parentheses stand around a token of the expression at most. -/
def nesting : Expr → Nat
  | literal _ | name _ => 0
  | parens e | plus e | minus e => e.nesting + 1
  | binary _ l r => max l.nesting r.nesting

end Expr

/-- The literal that a token is. -/
def Token.literal? : Token → Option Literal
  | .int n => some (.int n)
  | .float x => some (.float x)
  | .str s => some (.str s)
  | _ => none

/-- The nonterminals of the grammar. -/
inductive Nonterminal where
  | expr
  | term
  | unary
  | primary
  deriving DecidableEq, Repr

/-- `Derives nt ts e`: the grammar derives the tokens `ts` from the nonterminal as the
expression `e`. -/
inductive Derives : Nonterminal → List Token → Expr → Prop where
  | term {ts : List Token} {e : Expr} (h : Derives .term ts e) : Derives .expr ts e
  | additive {ts us : List Token} {l r : Expr} {op : Op} (hl : Derives .expr ts l)
      (level : op.isAdditive = true) (hr : Derives .term us r) :
      Derives .expr (ts ++ .op op :: us) (.binary op l r)
  | unary {ts : List Token} {e : Expr} (h : Derives .unary ts e) : Derives .term ts e
  | multiplicative {ts us : List Token} {l r : Expr} {op : Op} (hl : Derives .term ts l)
      (level : op.isAdditive = false) (hr : Derives .unary us r) :
      Derives .term (ts ++ .op op :: us) (.binary op l r)
  | primary {ts : List Token} {e : Expr} (h : Derives .primary ts e) : Derives .unary ts e
  | plus {ts : List Token} {e : Expr} (h : Derives .unary ts e) :
      Derives .unary (.op .add :: ts) (.plus e)
  | minus {ts : List Token} {e : Expr} (h : Derives .unary ts e) :
      Derives .unary (.op .sub :: ts) (.minus e)
  | literal {token : Token} {v : Literal} (h : token.literal? = some v) :
      Derives .primary [token] (.literal v)
  | name (n : String) : Derives .primary [.name n] (.name n)
  | parens {ts : List Token} {e : Expr} (h : Derives .expr ts e) :
      Derives .primary (.opening :: (ts ++ [.closing])) (.parens e)

/-! ## Values -/

/-- `Exact op a b n`: `n` is the exact result of an operation on 64-bit integers. There is none
where 64 bits do not hold it, where the divisor is zero, and where the least integer is divided by
`-1`, for the quotient or for the remainder. -/
inductive Exact : Op → Int → Int → Int → Prop where
  | add {a b : Int} (fits : inInt64 (a + b) = true) : Exact .add a b (a + b)
  | sub {a b : Int} (fits : inInt64 (a - b) = true) : Exact .sub a b (a - b)
  | mul {a b : Int} (fits : inInt64 (a * b) = true) : Exact .mul a b (a * b)
  | div {a b : Int} (nonzero : b ≠ 0) (fits : ¬(a = -2 ^ 63 ∧ b = -1)) : Exact .div a b (a.tdiv b)
  | rem {a b : Int} (nonzero : b ≠ 0) (fits : ¬(a = -2 ^ 63 ∧ b = -1)) : Exact .rem a b (a.tmod b)

/-- `Applies op a b v`: the operator gives `v` on the two values. -/
inductive Applies : Op → Literal → Literal → Literal → Prop where
  | ints {op : Op} {a b n : Int} (h : Exact op a b n) : Applies op (.int a) (.int b) (.int n)
  | textLeft (s : String) (b : Literal) : Applies .add (.str s) b (.str (s ++ b.render))
  | textRight (a : Literal) (s : String) : Applies .add a (.str s) (.str (a.render ++ s))
  | floats (op : Op) (x y : Float) : Applies op (.float x) (.float y) (.float (op.onFloats x y))
  | intFloat (op : Op) (a : Int) (y : Float) :
      Applies op (.int a) (.float y) (.float (op.onFloats (Float.ofInt a) y))
  | floatInt (op : Op) (x : Float) (b : Int) :
      Applies op (.float x) (.int b) (.float (op.onFloats x (Float.ofInt b)))

/-- `Negates a v`: `v` is the negative of `a`. A text has none, and neither has an integer whose
negative 64 bits do not hold. -/
inductive Negates : Literal → Literal → Prop where
  | int {n : Int} (fits : inInt64 (-n) = true) : Negates (.int n) (.int (-n))
  | float (x : Float) : Negates (.float x) (.float (-x))

/-- `e.HasValue names v`: the expression is worth `v` under the assignment. -/
inductive Expr.HasValue (names : Names) : Expr → Literal → Prop where
  | literal (v : Literal) : HasValue names (.literal v) v
  | name {n : String} {v : Literal} (h : names n = some v) : HasValue names (.name n) v
  | parens {e : Expr} {v : Literal} (h : HasValue names e v) : HasValue names (.parens e) v
  | plus {e : Expr} {v : Literal} (h : HasValue names e v) : HasValue names (.plus e) v
  | minus {e : Expr} {a v : Literal} (h : HasValue names e a) (neg : Negates a v) :
      HasValue names (.minus e) v
  | binary {op : Op} {l r : Expr} {a b v : Literal} (hl : HasValue names l a)
      (hr : HasValue names r b) (app : Applies op a b v) : HasValue names (.binary op l r) v

/-! ## The operations of the library -/

/-- A quotient leaves the 64-bit range only where the least integer is divided by `-1`. -/
theorem inInt64_tdiv_iff {a b : Int} (ha : inInt64 a = true) (hb : b ≠ 0) :
    inInt64 (a.tdiv b) = true ↔ ¬(a = -2 ^ 63 ∧ b = -1) := by
  have abs : (a.tdiv b).natAbs = a.natAbs / b.natAbs := Int.natAbs_tdiv a b
  simp only [inInt64, Bool.and_eq_true, decide_eq_true_eq] at ha ⊢
  by_cases one : b.natAbs = 1
  · obtain rfl | rfl : b = 1 ∨ b = -1 := by omega
    · rw [Int.tdiv_one]
      omega
    · rw [Int.tdiv_neg, Int.tdiv_one]
      omega
  · have half : a.natAbs / b.natAbs ≤ a.natAbs / 2 :=
      Nat.div_le_div_left (by omega) (by omega)
    omega

/-- The integer operations give the exact results. -/
theorem onInts?_eq_some_iff {op : Op} {a b n : Int} (ha : inInt64 a = true) :
    op.onInts? a b = some n ↔ Exact op a b n := by
  have fit : ∀ {m : Int}, Op.onInts?.fit m = some n ↔ inInt64 m = true ∧ m = n := by
    intro m
    simp [Op.onInts?.fit]
  constructor
  · intro h
    cases op with
    | add =>
      obtain ⟨fits, rfl⟩ := fit.mp h
      exact .add fits
    | sub =>
      obtain ⟨fits, rfl⟩ := fit.mp h
      exact .sub fits
    | mul =>
      obtain ⟨fits, rfl⟩ := fit.mp h
      exact .mul fits
    | div =>
      simp only [Op.onInts?, Option.ite_none_left_eq_some] at h
      obtain ⟨nonzero, h⟩ := h
      obtain ⟨fits, rfl⟩ := fit.mp h
      exact .div nonzero ((inInt64_tdiv_iff ha nonzero).mp fits)
    | rem =>
      simp only [Op.onInts?, Option.ite_none_left_eq_some, Option.map_eq_some_iff] at h
      obtain ⟨nonzero, q, hq, rfl⟩ := h
      simp only [Op.onInts?.fit, Option.ite_none_right_eq_some] at hq
      exact .rem nonzero ((inInt64_tdiv_iff ha nonzero).mp hq.1)
  · intro h
    cases h with
    | add fits => exact fit.mpr ⟨fits, rfl⟩
    | sub fits => exact fit.mpr ⟨fits, rfl⟩
    | mul fits => exact fit.mpr ⟨fits, rfl⟩
    | div nonzero fits =>
      rw [Op.onInts?, if_neg nonzero]
      exact fit.mpr ⟨(inInt64_tdiv_iff ha nonzero).mpr fits, rfl⟩
    | rem nonzero fits =>
      have quotient := (inInt64_tdiv_iff ha nonzero).mpr fits
      simp [Op.onInts?, Op.onInts?.fit, nonzero, quotient]

/-- An integer that 64 bits hold, or no integer. -/
def Literal.Fits : Literal → Prop
  | .int n => inInt64 n = true
  | _ => True

/-- Binary operators are applied as the grammar says. -/
theorem combine_eq_ok_iff {op : Op} {a b v : Literal} (ha : a.Fits) :
    a.combine op b = .ok v ↔ Applies op a b v := by
  constructor
  · intro h
    cases a <;> cases b <;> simp only [Literal.combine, Literal.toFloat?] at h
    case int.int a b =>
      split at h
      · next n hn =>
        cases h
        exact .ints ((onInts?_eq_some_iff ha).mp hn)
      · cases h
    case int.float | float.int | float.float => cases h; constructor
    all_goals
      split at h
      · next add => cases add; cases h; constructor
      · cases h
  · intro h
    cases h with
    | ints h => rw [Literal.combine, (onInts?_eq_some_iff ha).mpr h]
    | textLeft s b => cases b <;> rfl
    | textRight a s => cases a <;> rfl
    | floats | intFloat | floatInt => rfl

/-- Signs are applied as the grammar says. -/
theorem negate_eq_ok_iff {a v : Literal} : a.negate = .ok v ↔ Negates a v := by
  constructor
  · intro h
    cases a with
    | int n =>
      simp only [Literal.negate] at h
      split at h
      · next fits => cases h; exact .int fits
      · cases h
    | float x => cases h; exact .float x
    | str s => cases h
  · intro h
    cases h with
    | int fits => rw [Literal.negate, if_pos fits]
    | float x => rfl

/-! ## Values fit 64 bits -/

theorem Exact.inInt64 {op : Op} {a b n : Int} (ha : inInt64 a = true) (h : Exact op a b n) :
    inInt64 n = true := Literal.inInt64_of_onInts? ha ((onInts?_eq_some_iff ha).mpr h)

theorem Applies.fits {op : Op} {a b v : Literal} (ha : a.Fits) (h : Applies op a b v) : v.Fits := by
  cases h with
  | ints h => exact h.inInt64 ha
  | textLeft | textRight | floats | intFloat | floatInt => trivial

theorem Negates.fits {a v : Literal} (h : Negates a v) : v.Fits := by
  cases h with
  | int fits => exact fits
  | float => trivial

/-- An assignment of 64-bit integers, floats and texts. -/
def Names.Fit (names : Names) : Prop := ∀ n v, names n = some v → v.Fits

/-- A token whose integer 64 bits hold. -/
def Token.Fits (token : Token) : Prop := ∀ v, token.literal? = some v → v.Fits

/-- A property of values that the operations keep passes from the literals and the assigned values
to the value of an expression. -/
theorem Derives.keeps {P : Literal → Prop}
    (applies : ∀ {op a b v}, Applies op a b v → P a → P b → P v)
    (negates : ∀ {a v}, Negates a v → P a → P v) {names : Names} {nt : Nonterminal}
    {ts : List Token} {e : Expr} {v : Literal} (hn : ∀ n v, names n = some v → P v)
    (h : Derives nt ts e) (ht : ∀ t ∈ ts, ∀ v, t.literal? = some v → P v)
    (hv : e.HasValue names v) : P v := by
  induction h generalizing v with
  | term _ ih | unary _ ih | primary _ ih => exact ih ht hv
  | additive _ _ _ ihl ihr | multiplicative _ _ _ ihl ihr =>
    obtain ⟨htl, htr⟩ := List.forall_mem_append.mp ht
    cases hv with
    | binary hl hr app => exact applies app (ihl htl hl) (ihr (List.forall_mem_cons.mp htr).2 hr)
  | plus _ ih =>
    cases hv with
    | plus h => exact ih (List.forall_mem_cons.mp ht).2 h
  | minus _ ih =>
    cases hv with
    | minus h neg => exact negates neg (ih (List.forall_mem_cons.mp ht).2 h)
  | literal h =>
    cases hv
    exact ht _ (List.mem_singleton_self _) _ h
  | name n =>
    cases hv with
    | name h => exact hn n _ h
  | parens _ ih =>
    cases hv with
    | parens h => exact ih (List.forall_mem_append.mp (List.forall_mem_cons.mp ht).2).1 h

/-- The value of an expression fits where its literals and the assigned values do. -/
theorem Derives.fits {names : Names} {nt : Nonterminal} {ts : List Token} {e : Expr}
    {v : Literal} (hn : names.Fit) (h : Derives nt ts e) (ht : ∀ t ∈ ts, t.Fits)
    (hv : e.HasValue names v) : v.Fits :=
  h.keeps (fun app ha _ => app.fits ha) (fun neg _ => neg.fits) hn ht hv

end ShaderInterface.Macro
