import Mathlib.Algebra.Order.Ring.Int
import ShaderInterface.Proofs.Macro.Rendering
import ShaderInterface.Proofs.Macro.Resolution
import ShaderInterface.Proofs.Macro.Spelling
import ShaderInterface.Proofs.Macro.Substitution

/-!
# Integers put in place of macros

Putting integers in place of macros keeps the value of an expression (`eval_substitute`). Of the
tokens it replaces names by integers, with a sign where they are negative (`Token.inline`), so that
an expression derives as before, but for a name that becomes a signed operand
(`Derives.exists_inlinedAs`). Of the text it replaces words by words, which nothing next to them can
touch (`Spells.replace`). Only a sign can nest an expression deeper than it was.
-/

namespace ShaderInterface.Macro

open Number Text

variable {names : Names} {nt : Nonterminal} {ts tokens : List Token} {e : Expr} {v : Literal}
  {n r : Int} {s : List Char}

/-! ## Expressions of integers -/

/-- Every assigned value is an integer whose negative 64 bits hold too. -/
def Names.Integral (names : Names) : Prop :=
  ∀ name v, names name = some v → ∃ n, v = .int n ∧ -2 ^ 63 < n ∧ n < 2 ^ 63

/-- An operation gives an integer on integers only. -/
theorem exists_ints_of_combine {op : Op} {a b : Literal} (h : a.combine op b = .ok (.int n)) :
    ∃ m k, a = .int m ∧ b = .int k := by
  cases a <;> cases b <;> simp only [Literal.combine, Literal.toFloat?] at h
  case int.int m k => exact ⟨m, k, rfl, rfl⟩
  all_goals first | cases h | (split at h <;> cases h)

theorem exists_int_of_negate {a : Literal} (h : a.negate = .ok (.int n)) : ∃ m, a = .int m := by
  cases a with
  | int m => exact ⟨m, rfl⟩
  | float x => cases h
  | str s => cases h

theorem value?_minus_eq_some_iff :
    (Expr.minus e).value? names = some v ↔ ∃ a, e.value? names = some a ∧ a.negate = .ok v := by
  simp only [Expr.value?, Option.bind_eq_bind, Option.bind_eq_some_iff, toOption_eq_some_iff]

theorem isPlain_append_op {us : List Token} {op : Op} (hl : ∀ t ∈ ts, t.isPlain)
    (hr : ∀ t ∈ us, t.isPlain) : ∀ t ∈ ts ++ .op op :: us, t.isPlain :=
  List.forall_mem_append.mpr ⟨hl, List.forall_mem_cons.mpr ⟨rfl, hr⟩⟩

/-- The tokens of an expression with an integer value are plain. -/
theorem Derives.isPlain (h : Derives nt ts e) (hv : e.value? names = some (.int r)) :
    ∀ t ∈ ts, t.isPlain := by
  induction h generalizing r with
  | term _ ih | unary _ ih | primary _ ih => exact ih hv
  | additive _ _ _ ihl ihr | multiplicative _ _ _ ihl ihr =>
    obtain ⟨a, ha, b, hb, combined⟩ := value?_binary_eq_some_iff.mp hv
    obtain ⟨m, k, rfl, rfl⟩ := exists_ints_of_combine combined
    exact isPlain_append_op (ihl ha) (ihr hb)
  | plus _ ih => exact List.forall_mem_cons.mpr ⟨rfl, ih hv⟩
  | minus _ ih =>
    obtain ⟨a, ha, negated⟩ := value?_minus_eq_some_iff.mp hv
    obtain ⟨m, rfl⟩ := exists_int_of_negate negated
    exact List.forall_mem_cons.mpr ⟨rfl, ih ha⟩
  | @literal token v h =>
    cases hv
    cases token <;> cases h
    exact List.forall_mem_singleton.mpr rfl
  | name n => exact List.forall_mem_singleton.mpr rfl
  | parens _ ih =>
    exact List.forall_mem_cons.mpr
      ⟨rfl, List.forall_mem_append.mpr ⟨ih hv, List.forall_mem_singleton.mpr rfl⟩⟩

/-- Tokens are put together at one that is no operand. -/
theorem isChain_append_cons {us : List Token} {token : Token} (noOperand : token.isOperand = false)
    (hl : ts.IsChain Adjoin) (hr : us.IsChain Adjoin) : (ts ++ token :: us).IsChain Adjoin := by
  refine List.isChain_append.mpr ⟨hl, List.isChain_cons.mpr ⟨fun _ _ => .inl noOperand, hr⟩, ?_⟩
  rintro _ _ _ ⟨⟩
  exact .inr noOperand

/-- No two operands touch in an expression. -/
theorem Derives.isChain (h : Derives nt ts e) : ts.IsChain Adjoin := by
  induction h with
  | term _ ih | unary _ ih | primary _ ih => exact ih
  | additive _ _ _ ihl ihr | multiplicative _ _ _ ihl ihr => exact isChain_append_cons rfl ihl ihr
  | plus _ ih | minus _ ih => exact isChain_append_cons rfl .nil ih
  | literal h => exact .singleton _
  | name n => exact .singleton _
  | parens _ ih => exact isChain_append_cons rfl .nil (isChain_append_cons rfl ih .nil)

/-! ## Names replaced by integers -/

/-- The tokens of an integer: a negative one has a sign. -/
def integerTokens (n : Int) : List Token := if n < 0 then [.op .sub, .int (-n)] else [.int n]

/-- What stands for a token where names are replaced by their integers. -/
def Token.inline (names : Names) : Token → List Token
  | .name n => match names n with
    | some (.int m) => integerTokens m
    | _ => [.name n]
  | token => [token]

/-- Where an operand with a sign can stand in place of the nonterminal. -/
def Nonterminal.signed : Nonterminal → Nonterminal
  | .primary => .unary
  | nt => nt

/-- The second expression has the value of the first without its names, and nests no deeper unless
an integer is negative. -/
structure Expr.InlinedAs (names : Names) (e e' : Expr) : Prop where
  value : ∀ v, e.value? names = some v → e'.value? (fun _ => none) = some v
  nesting : (∀ name n, names name = some (.int n) → 0 ≤ n) → e'.nesting ≤ e.nesting

namespace Expr.InlinedAs

variable {e' l r l' r' : Expr}

theorem minus (h : e.InlinedAs names e') : (Expr.minus e).InlinedAs names (.minus e') where
  value v hv := by
    obtain ⟨a, ha, negated⟩ := value?_minus_eq_some_iff.mp hv
    exact value?_minus_eq_some_iff.mpr ⟨a, h.value a ha, negated⟩
  nesting nonneg := Nat.succ_le_succ (h.nesting nonneg)

theorem plus (h : e.InlinedAs names e') : (Expr.plus e).InlinedAs names (.plus e') where
  value := h.value
  nesting nonneg := Nat.succ_le_succ (h.nesting nonneg)

theorem parens (h : e.InlinedAs names e') : (Expr.parens e).InlinedAs names (.parens e') where
  value := h.value
  nesting nonneg := Nat.succ_le_succ (h.nesting nonneg)

theorem binary {op : Op} (hl : l.InlinedAs names l') (hr : r.InlinedAs names r') :
    (Expr.binary op l r).InlinedAs names (.binary op l' r') where
  value v hv := by
    obtain ⟨a, ha, b, hb, combined⟩ := value?_binary_eq_some_iff.mp hv
    exact value?_binary_eq_some_iff.mpr ⟨a, hl.value a ha, b, hr.value b hb, combined⟩
  nesting nonneg := max_le_max (hl.nesting nonneg) (hr.nesting nonneg)

end Expr.InlinedAs

/-- A name is inlined as the operand that its integer makes. -/
theorem exists_inlinedAs_name {name : String} (hv : names name = some (.int n))
    (low : -2 ^ 63 < n) (high : n < 2 ^ 63) :
    ∃ e, Derives .unary (integerTokens n) e ∧ (Expr.name name).InlinedAs names e := by
  unfold integerTokens
  split
  · next negative =>
    have negated : (Literal.int (-n)).negate = .ok (.int n) := by
      have fits : inInt64 n = true := by
        simp only [inInt64, Bool.and_eq_true, decide_eq_true_eq]
        omega
      rw [Literal.negate, neg_neg, if_pos fits]
    refine ⟨.minus (.literal (.int (-n))), .minus (.primary (.literal rfl)), ?_, ?_⟩
    · intro v hv'
      cases hv.symm.trans hv'
      exact value?_minus_eq_some_iff.mpr ⟨_, rfl, negated⟩
    · exact fun nonneg => absurd negative (not_lt.mpr (nonneg name n hv))
  · refine ⟨.literal (.int n), .primary (.literal rfl), ?_, fun _ => le_rfl⟩
    intro v hv'
    cases hv.symm.trans hv'
    rfl

/-- **Names can be replaced by their integers in an expression.** It keeps its value, and nests
deeper only where an integer is negative. -/
theorem Derives.exists_inlinedAs (hn : names.Integral) (h : Derives nt ts e) :
    ∃ e', Derives nt.signed (ts.flatMap (Token.inline names)) e' ∧ e.InlinedAs names e' := by
  -- What stands for a primary may be a unary with a sign, which is all that a unary asks for.
  induction h with
  | term _ ih =>
    obtain ⟨e', hd, inlined⟩ := ih
    exact ⟨e', .term hd, inlined⟩
  | unary _ ih =>
    obtain ⟨e', hd, inlined⟩ := ih
    exact ⟨e', .unary hd, inlined⟩
  | primary _ ih => exact ih
  | additive _ level _ ihl ihr =>
    obtain ⟨l', hl, inlinedl⟩ := ihl
    obtain ⟨r', hr, inlinedr⟩ := ihr
    rw [List.flatMap_append, List.flatMap_cons]
    exact ⟨.binary _ l' r', .additive hl level hr, inlinedl.binary inlinedr⟩
  | multiplicative _ level _ ihl ihr =>
    obtain ⟨l', hl, inlinedl⟩ := ihl
    obtain ⟨r', hr, inlinedr⟩ := ihr
    rw [List.flatMap_append, List.flatMap_cons]
    exact ⟨.binary _ l' r', .multiplicative hl level hr, inlinedl.binary inlinedr⟩
  | plus _ ih =>
    obtain ⟨e', hd, inlined⟩ := ih
    exact ⟨.plus e', .plus hd, inlined.plus⟩
  | minus _ ih =>
    obtain ⟨e', hd, inlined⟩ := ih
    exact ⟨.minus e', .minus hd, inlined.minus⟩
  | @literal token w h =>
    have kept : [token].flatMap (Token.inline names) = [token] := by
      cases token <;> cases h <;> rfl
    rw [kept]
    exact ⟨.literal w, .primary (.literal h), fun _ => id, fun _ => le_rfl⟩
  | name name =>
    rw [List.flatMap_singleton, Token.inline]
    cases hv : names name with
    | none =>
      refine ⟨.name name, .primary (.name name), fun v hv' => ?_, fun _ => le_rfl⟩
      cases hv.symm.trans hv'
    | some v =>
      obtain ⟨n, rfl, low, high⟩ := hn name v hv
      exact exists_inlinedAs_name hv low high
  | parens _ ih =>
    obtain ⟨e', hd, inlined⟩ := ih
    rw [List.flatMap_cons, List.flatMap_append, List.flatMap_singleton]
    exact ⟨.parens e', .primary (.parens hd), inlined.parens⟩

/-! ## Words replaced by integers -/

theorem ofDigits_eq_ofDigitChars {digits : List Char} (all : ∀ c ∈ digits, c.isDigit) :
    ofDigits 10 digits = Nat.ofDigitChars 10 digits 0 := by
  unfold ofDigits Nat.ofDigitChars
  refine List.foldl_ext _ _ _ fun m c hc => ?_
  rw [hexValue?, if_pos (all c hc), mul_comm]
  rfl

/-- A number in decimal digits is an integer. -/
theorem integerText_toDigits (m : Nat) : IntegerText (Nat.toDigits 10 m) m := by
  have all : ∀ c ∈ Nat.toDigits 10 m, c.isDigit := fun c hc =>
    Nat.isDigit_of_mem_toDigits (by decide) (by decide) hc
  have value : ofDigits 10 (Nat.toDigits 10 m) = m := by
    rw [ofDigits_eq_ofDigitChars all, Nat.ofDigitChars_toDigits (by decide) (by decide)]
  have text := IntegerText.decimal Nat.toDigits_ne_nil all (List.mem_cons_self (a := []))
  rwa [value, List.append_nil] at text

/-- The rendering of an integer spells its tokens, in front of a spelling that begins with no
word. -/
theorem Spells.render (low : -2 ^ 63 < n) (high : n < 2 ^ 63) (ends : Text.isBoundary s.head?)
    (h : Spells s tokens) :
    Spells ((Literal.int n).render.toList ++ s) (integerTokens n ++ tokens) := by
  have digits : Spells (Nat.toDigits 10 n.natAbs ++ s) (.int n.natAbs :: tokens) :=
    .word (.integer (integerText_toDigits n.natAbs) (by omega)) ends h
  rw [Literal.render, toList_toString, integerTokens]
  rcases lt_or_ge n 0 with negative | positive
  · rw [if_pos negative, if_pos negative, ← Int.ofNat_natAbs_of_nonpos negative.le]
    exact .symbol rfl digits
  · rw [if_neg positive.not_gt, if_neg positive.not_gt]
    rwa [Int.natAbs_of_nonneg positive] at digits

theorem isIdentifier_of_integerText {w : List Char} {m : Nat} (h : IntegerText w m) :
    isIdentifier w = false := by
  obtain ⟨c, w, rfl, digit⟩ := h.exists_digit
  rw [isIdentifier, Bool.and_eq_false_iff]
  left
  by_contra start
  rw [not_isDigit_of_isIdentStart (by simpa using start)] at digit
  cases digit

theorem inline_of_ofChar? {c : Char} {token : Token} (h : Token.ofChar? c = some token) :
    Token.inline names token = [token] := by
  unfold Token.ofChar? at h
  split at h
  · cases h
    rfl
  split at h
  · cases h
    rfl
  · obtain ⟨op, -, rfl⟩ := Option.map_eq_some_iff.mp h
    rfl

variable {table : Table}

/-- **Replacing macros by integers replaces their names among the tokens.** -/
theorem Spells.replace (hn : Names.Integral table.get?) (h : Spells s tokens) :
    Spells (table.replace s) (tokens.flatMap (Token.inline table.get?)) := by
  induction h with
  | nil => exact .nil
  | blank blank _ ih =>
    rw [Table.replace_cons (not_isWordChar_of_isBlank blank)]
    exact .blank blank ih
  | symbol h _ ih =>
    rw [Table.replace_cons (not_isWordChar_of_mem_symbols (mem_symbols_of_ofChar? h)),
      List.flatMap_cons, inline_of_ofChar? h]
    exact .symbol h ih
  | @word w s token tokens h ends _ ih =>
    have ends' : Text.isBoundary (table.replace s).head? := Table.isBoundary_replace ends
    rw [Table.replace_word_append h.ne_nil h.isWordChar ends, List.flatMap_cons]
    -- An integer is no identifier and stays; an identifier is looked up.
    cases h with
    | integer h fits =>
      rw [Table.replaceRun, isIdentifier_of_integerText h, if_neg Bool.false_ne_true]
      exact .word (.integer h fits) ends' ih
    | name ident =>
      rw [Table.replaceRun, if_pos ident, Token.inline]
      cases hv : table.get? (String.ofList w) with
      | none => exact .word (.name ident) ends' ih
      | some v =>
        obtain ⟨n, rfl, low, high⟩ := hn _ v hv
        exact .render low high ends' ih

/-! ## Whole texts -/

/-- A spelling holds no number sign. -/
theorem Spells.numberSign_not_mem (h : Spells s tokens) : '#' ∉ s := by
  induction h with
  | nil => exact List.not_mem_nil
  | blank blank _ ih =>
    refine List.not_mem_cons_of_ne_of_not_mem ?_ ih
    rintro rfl
    exact absurd blank (by decide)
  | symbol h _ ih =>
    refine List.not_mem_cons_of_ne_of_not_mem ?_ ih
    rintro rfl
    exact absurd (mem_symbols_of_ofChar? h) (by decide)
  | word h _ _ ih =>
    refine fun mem => (List.mem_append.mp mem).elim (fun mem => ?_) ih
    exact absurd (h.isWordChar _ mem) (by decide +kernel)

/-- An expression that derives has its value, unless it nests too deep. -/
theorem Derives.evalTokens_cases (h : Derives .expr tokens e) (hv : e.value? names = some v) :
    evalTokens names tokens = .ok v ∨
      evalTokens names tokens = .error (.invalid .nestingTooDeep) := by
  -- At a depth that is enough for the expression it is read as a whole.
  have deep : sum (operand names (max maxNesting e.nesting)) (tokens ++ []) = .ok (v, []) :=
    sum_complete (operand_complete names _) ⟨e, h, le_max_right _ _, hv⟩ []
      fun op us heq => (by cases heq)
  rw [List.append_nil] at deep
  have settles := (settles_deeper names (le_max_left maxNesting e.nesting)).sum tokens
  rcases settles with same | ⟨_, rfl, he⟩
  · exact .inl (evalTokens_eq_ok_iff.mpr (same.trans deep))
  · right
    cases tokens with
    | nil => cases he
    | cons token tokens =>
      rw [evalTokens, expression, he]
      rfl

/-- **Substituting integer macros keeps the value of an expression.** Where all macros are integers
whose negatives 64 bits hold, and a text has an integer value under them, the substituted text has
that value under no names at all, or nests too deep. It has the value where no macro is negative. -/
theorem Table.eval_substitute (integers : ∀ name v, table.get? name = some v →
      ∃ n, v = .int n ∧ -2 ^ 63 < n ∧ n < 2 ^ 63)
    (h : table.eval s = .ok (.int r)) :
    (({} : Table).eval (table.substitute s) = .ok (.int r) ∨
      ({} : Table).eval (table.substitute s) = .error (.invalid .nestingTooDeep)) ∧
    ((∀ name n, table.get? name = some (.int n) → 0 ≤ n) →
      ({} : Table).eval (table.substitute s) = .ok (.int r)) := by
  obtain ⟨tokens, read, e, derives, nest, value⟩ := eval_eq_ok_iff_worth.mp h
  have spells := spells_of_lex read (derives.isPlain value) derives.isChain
  obtain ⟨e', derives', inlined⟩ := derives.exists_inlinedAs integers
  have value' := inlined.value _ value
  have noNames : ({} : Table).get? = fun _ => none := funext Table.get?_empty
  have replaced : lex (table.substitute s) =
      .ok (tokens.flatMap (Token.inline table.get?)) := by
    rw [substitute_eq_replace table (isDirective_eq_false spells.numberSign_not_mem)]
    exact lex_eq_ok_of_spells (spells.replace integers)
  have evaluated : ({} : Table).eval (table.substitute s) =
      evalTokens (fun _ => none) (tokens.flatMap (Token.inline table.get?)) := by
    rw [Table.eval, noNames, Macro.eval, replaced]
  rw [evaluated]
  refine ⟨derives'.evalTokens_cases value', fun nonneg => ?_⟩
  exact evalTokens_eq_ok_iff_worth.mpr
    ⟨e', derives', (inlined.nesting nonneg).trans nest, value'⟩

/-- A table with one macro. -/
def oneMacro (n : Int) : Table := ({} : Table).add "N" (.int n)

/-- An expression whose minus stands in front of the macro. -/
def minusMacro : List Char := "7 -N % 4u".toList

theorem Table.eval_substitute_oneMacro :
    (({} : Table).eval ((oneMacro (-3)).substitute minusMacro) = .ok (.int 10) ∨
      ({} : Table).eval ((oneMacro (-3)).substitute minusMacro) =
        .error (.invalid .nestingTooDeep)) ∧
    ({} : Table).eval ((oneMacro 3).substitute minusMacro) = .ok (.int 4) := by
  have value : ∀ {n : Int} {name : String} {v : Literal}, (oneMacro n).get? name = some v →
      v = .int n := fun {n name v} h => by
    rw [oneMacro, Table.get?_add, Table.get?_empty, Option.ite_none_right_eq_some] at h
    exact (Option.some.inj h.2).symm
  have negative : (oneMacro (-3)).eval minusMacro = .ok (.int 10) := by decide +kernel
  have positive : (oneMacro 3).eval minusMacro = .ok (.int 4) := by decide +kernel
  constructor
  · exact (Table.eval_substitute (fun _ _ h => ⟨-3, value h, by decide, by decide⟩) negative).1
  · refine (Table.eval_substitute (fun _ _ h => ⟨3, value h, by decide, by decide⟩) positive).2 ?_
    intro name n h
    cases value h
    decide

end ShaderInterface.Macro
