import ShaderInterface.Macro.Expr

/-!
# Evaluation under more names and at more depth

More names change an evaluation only where it stopped for want of one of them: a value stays the
same value and a fault the same fault, and the want of a name that is not supplied stays
(`settles_eval`). So does more depth where the tokens nested too deep (`settles_deeper`). The
relation `Settles` says so of two outcomes, up to the errors that it excuses; it is carried through
the readers from the operands up.
-/

namespace ShaderInterface.Macro

/-- The second assignment gives every name of the first the same value. -/
def Names.Extends (names names' : Names) : Prop := ∀ n v, names n = some v → names' n = some v

theorem Names.Extends.trans {a b c : Names} (h : a.Extends b) (h' : b.Extends c) : a.Extends c :=
  fun n v hv => h' n v (h n v hv)

/-- `Settles excused x y`: the outcome `y` is `x`, unless `x` is an error that is excused. -/
def Settles {α : Type} (excused : EvalError → Prop) (x y : Except EvalError α) : Prop :=
  x = y ∨ ∃ e, excused e ∧ x = .error e

namespace Settles

variable {α β : Type} {excused : EvalError → Prop} {x y : Except EvalError α}

theorem refl (x : Except EvalError α) : Settles excused x x := .inl rfl

theorem eq_ok {a : α} (h : Settles excused x y) (hx : x = .ok a) : y = .ok a := by
  rcases h with rfl | ⟨e, -, he⟩
  · exact hx
  · rw [he] at hx
    cases hx

theorem eq_error {e : EvalError} (h : Settles excused x y) (hx : x = .error e)
    (he : ¬ excused e) : y = .error e := by
  rcases h with rfl | ⟨e', excused, he'⟩
  · exact hx
  · rw [he'] at hx
    cases hx
    exact absurd excused he

/-- What goes on from two outcomes settles where it does from every value. -/
theorem bind {f g : α → Except EvalError β} (h : Settles excused x y)
    (hf : ∀ a, Settles excused (f a) (g a)) : Settles excused (x >>= f) (y >>= g) := by
  rcases h with rfl | ⟨e, he, rfl⟩
  · cases x with
    | error e => exact .inl rfl
    | ok a => exact hf a
  · exact .inr ⟨e, he, rfl⟩

end Settles

/-- One reader settles another on every list of tokens. -/
def SettlesAll (excused : EvalError → Prop) (f g : List Token → Reading) : Prop :=
  ∀ tokens, Settles excused (f tokens) (g tokens)

namespace SettlesAll

variable {excused : EvalError → Prop} {f g : List Token → Reading}

theorem chainFrom (h : SettlesAll excused f g) (level : Op → Bool) (fuel : Nat) (v : Literal)
    (tokens : List Token) :
    Settles excused (chainFrom f level fuel v tokens) (chainFrom g level fuel v tokens) := by
  induction fuel generalizing v tokens with
  | zero => exact .refl _
  | succ fuel ih =>
    unfold Macro.chainFrom
    split
    · next op rest =>
      cases level op with
      | false => exact .refl _
      | true =>
        refine (h rest).bind fun out => ?_
        exact (Settles.refl (ofOperation (v.combine op out.1))).bind fun w => ih w out.2
    · exact .refl _

theorem chain (h : SettlesAll excused f g) (level : Op → Bool) :
    SettlesAll excused (chain f level) (chain g level) := by
  intro tokens
  exact (h tokens).bind fun out => h.chainFrom level out.2.length out.1 out.2

theorem sum (h : SettlesAll excused f g) : SettlesAll excused (sum f) (sum g) :=
  (h.chain fun op => !op.isAdditive).chain Op.isAdditive

end SettlesAll

/-! ## More names -/

/-- The evaluation wants a name to which the assignment gives a value. -/
def Names.Supplies (names : Names) (e : EvalError) : Prop :=
  ∃ n, e = .unresolved n ∧ (names n).isSome

variable {names names' : Names}

/-- Operands settle under more names. The induction is on the depth. -/
theorem settles_operand (ext : names.Extends names') (depth : Nat) :
    SettlesAll names'.Supplies (operand names depth) (operand names' depth) := by
  induction depth using Nat.strongRecOn with
  | ind depth ih =>
    intro tokens
    unfold operand
    split
    case h_5 n rest =>
      cases hn : names n with
      | some v => rw [ext n v hn]; exact .refl _
      | none =>
        cases hn' : names' n with
        | none => exact .refl _
        | some v => exact .inr ⟨_, ⟨n, rfl, by simp [hn']⟩, rfl⟩
    case h_9 d rest => exact (ih d (Nat.lt_succ_self d) rest).bind fun out => .refl _
    case h_10 d rest => exact ih d (Nat.lt_succ_self d) rest
    case h_11 d rest => exact ((ih d (Nat.lt_succ_self d)).sum rest).bind fun out => .refl _
    all_goals exact .refl _

/-- **Evaluation settles under more names**: a value stays that value, a fault that fault. -/
theorem settles_eval (ext : names.Extends names') (s : List Char) :
    Settles names'.Supplies (eval names s) (eval names' s) := by
  unfold eval
  cases lex s with
  | error fault => exact .refl _
  | ok tokens =>
    cases tokens with
    | nil => exact .refl _
    | cons token tokens =>
      exact ((settles_operand ext maxNesting).sum (token :: tokens)).bind fun out => .refl _

theorem eval_eq_ok_of_extends (ext : names.Extends names') {s : List Char} {v : Literal}
    (h : eval names s = .ok v) : eval names' s = .ok v := (settles_eval ext s).eq_ok h

theorem eval_eq_invalid_of_extends (ext : names.Extends names') {s : List Char} {fault : Fault}
    (h : eval names s = .error (.invalid fault)) : eval names' s = .error (.invalid fault) :=
  (settles_eval ext s).eq_error h fun ⟨_, unresolved, _⟩ => (by cases unresolved)

/-- What is wanted is wanted until it is supplied. -/
theorem eval_eq_unresolved_of_extends (ext : names.Extends names') {s : List Char} {n : String}
    (h : eval names s = .error (.unresolved n)) (lacking : names' n = none) :
    eval names' s = .error (.unresolved n) := by
  refine (settles_eval ext s).eq_error h ?_
  rintro ⟨_, ⟨⟩, supplied⟩
  rw [lacking] at supplied
  cases supplied

/-! ## More depth -/

/-- Operands settle at more depth, unless they nest too deep. The induction is on the lesser
depth. -/
theorem settles_deeper (names : Names) {depth depth' : Nat} (le : depth ≤ depth') :
    SettlesAll (· = .invalid .nestingTooDeep) (operand names depth) (operand names depth') := by
  induction depth generalizing depth' with
  | zero =>
    rintro (_ | ⟨_ | _ | _ | _ | (_ | _ | _ | _ | _) | _ | _, rest⟩)
    case cons.op.add | cons.op.sub | cons.opening => exact .inr ⟨_, rfl, rfl⟩
    all_goals cases depth' <;> exact .refl _
  | succ depth ih =>
    obtain ⟨d, rfl⟩ : ∃ d, depth' = d + 1 := ⟨depth' - 1, by omega⟩
    have deeper := ih (Nat.le_of_succ_le_succ le)
    rintro (_ | ⟨_ | _ | _ | _ | (_ | _ | _ | _ | _) | _ | _, rest⟩)
    case cons.op.add => exact deeper rest
    case cons.op.sub => exact (deeper rest).bind fun out => .refl _
    case cons.opening => exact (deeper.sum rest).bind fun out => .refl _
    all_goals exact .refl _

end ShaderInterface.Macro
