import ShaderInterface.Proofs.Macro.Evaluation
import ShaderInterface.Proofs.Macro.Extension

/-!
# Names that an evaluation lacks

An evaluation that stops for want of a name stops at a name of its text to which no value is
assigned (`eval_eq_unresolved`). The readers are gone through from the operands up, as they are for
the grammar: what a reader takes for granted of the tokens that it leaves comes from its soundness.
So more names change nothing but the evaluations that want one of them (`eval_of_extends`).
-/

namespace ShaderInterface.Macro

variable {names : Names} {P : List Token → Literal → Prop} {level : Op → Bool}
  {read : List Token → Reading}

/-- Where the reader lacks a name, the name is one of its tokens and has no value. -/
def LacksOnly (names : Names) (read : List Token → Reading) : Prop :=
  ∀ (tokens : List Token) (n : String), read tokens = .error (.unresolved n) →
    .name n ∈ tokens ∧ names n = none

theorem ofOperation_ne_unresolved {x : Except OpFault Literal} {n : String} :
    ofOperation x ≠ .error (.unresolved n) := by
  cases x <;> simp [ofOperation, Except.mapError]

/-- A chain lacks no other names than its operands do. -/
theorem LacksOnly.chainFrom (hs : Sound P read) (hl : LacksOnly names read) (fuel : Nat)
    (v : Literal) : LacksOnly names (chainFrom read level fuel v) := by
  induction fuel generalizing v with
  | zero =>
    intro tokens n h
    cases h
  | succ fuel ih =>
    intro tokens n h
    by_cases first : ∃ op us, tokens = .op op :: us ∧ level op = true
    · obtain ⟨op, us, rfl, hop⟩ := first
      rw [chainFrom_cons _ _ hop] at h
      cases hb : read us with
      | error e =>
        rw [hb] at h
        cases h
        exact (hl us n hb).imp_left (List.mem_cons_of_mem _)
      | ok out =>
        obtain ⟨b, rest⟩ := out
        rw [hb] at h
        change (ofOperation (v.combine op b) >>= fun w => Macro.chainFrom read level fuel w rest) =
          _ at h
        cases hv : ofOperation (v.combine op b) with
        | error e =>
          rw [hv] at h
          cases h
          exact absurd hv ofOperation_ne_unresolved
        | ok w =>
          rw [hv] at h
          obtain ⟨used, rfl, -⟩ := hs hb
          exact (ih w rest n h).imp_left fun m => List.mem_cons_of_mem _ (List.mem_append_right _ m)
    · have ends : EndsLevel level tokens := fun op us hus => by
        simpa using fun hop => first ⟨op, us, hus, hop⟩
      rw [chainFrom_of_endsLevel _ _ ends] at h
      cases h

theorem LacksOnly.chain (hs : Sound P read) (hl : LacksOnly names read) :
    LacksOnly names (chain read level) := by
  intro tokens n h
  rw [Macro.chain] at h
  cases ha : read tokens with
  | error e =>
    rw [ha] at h
    cases h
    exact hl tokens n ha
  | ok out =>
    rw [ha] at h
    obtain ⟨used, rfl, -⟩ := hs ha
    exact (hl.chainFrom hs _ _ _ n h).imp_left (List.mem_append_right _)

theorem LacksOnly.sum (hs : Sound P read) (hl : LacksOnly names read) :
    LacksOnly names (sum read) :=
  (hl.chain hs).chain (chain_sound hs)

/-- Operands lack names of their own tokens only. The induction is on the depth. -/
theorem lacksOnly_operand (names : Names) (depth : Nat) :
    LacksOnly names (operand names depth) := by
  induction depth using Nat.strongRecOn with
  | ind depth ih =>
    intro tokens n h
    unfold operand at h
    split at h
    case h_5 m rest =>
      cases hm : names m with
      | some v => rw [hm] at h; cases h
      | none =>
        rw [hm] at h
        cases h
        exact ⟨List.mem_cons_self, hm⟩
    case h_9 d rest =>
      cases ha : operand names d rest with
      | error e =>
        rw [ha] at h
        cases h
        exact (ih d (Nat.lt_succ_self d) rest n ha).imp_left (List.mem_cons_of_mem _)
      | ok out =>
        rw [ha] at h
        change (ofOperation out.1.negate >>= fun v => .ok (v, out.2)) = _ at h
        cases hv : ofOperation out.1.negate with
        | error e =>
          rw [hv] at h
          cases h
          exact absurd hv ofOperation_ne_unresolved
        | ok w => rw [hv] at h; cases h
    case h_10 d rest => exact (ih d (Nat.lt_succ_self d) rest n h).imp_left (List.mem_cons_of_mem _)
    case h_11 d rest =>
      cases hs : Macro.sum (operand names d) rest with
      | error e =>
        rw [hs] at h
        cases h
        have lacks := (ih d (Nat.lt_succ_self d)).sum (operand_sound names d)
        exact (lacks rest n hs).imp_left (List.mem_cons_of_mem _)
      | ok out =>
        obtain ⟨v, rest'⟩ := out
        rw [hs] at h
        cases rest' with
        | nil => cases h
        | cons token rest' => cases token <;> cases h
    all_goals cases h

/-- **An evaluation lacks a name of its text only**, and only one to which no value is assigned. -/
theorem eval_eq_unresolved {s : List Char} {n : String}
    (h : eval names s = .error (.unresolved n)) :
    ∃ tokens, lex s = .ok tokens ∧ .name n ∈ tokens ∧ names n = none := by
  unfold eval at h
  cases hl : lex s with
  | error fault => rw [hl] at h; cases h
  | ok tokens =>
    rw [hl] at h
    refine ⟨tokens, rfl, ?_⟩
    cases tokens with
    | nil => cases h
    | cons token tokens =>
      have lacks : LacksOnly names (expression names) :=
        (lacksOnly_operand names maxNesting).sum (operand_sound names maxNesting)
      change evalTokens names (token :: tokens) = _ at h
      unfold evalTokens at h
      cases he : expression names (token :: tokens) with
      | error e =>
        rw [he] at h
        cases h
        exact lacks _ n he
      | ok out =>
        obtain ⟨v, rest⟩ := out
        rw [he] at h
        cases rest <;> cases h

/-! ## More names -/

variable {names' : Names}

/-- **Evaluation is monotone in the names.** When every name keeps its value, a value stays that
value and a fault that fault; an evaluation that wants a name wants one of its text that has no
value, and does so until the name has one. -/
theorem eval_of_extends (ext : names.Extends names') (s : List Char) :
    (∀ v, eval names s = .ok v → eval names' s = .ok v) ∧
    (∀ fault, eval names s = .error (.invalid fault) →
      eval names' s = .error (.invalid fault)) ∧
    ∀ n, eval names s = .error (.unresolved n) →
      (∃ tokens, lex s = .ok tokens ∧ .name n ∈ tokens) ∧ names n = none ∧
        (names' n = none → eval names' s = .error (.unresolved n)) := by
  refine ⟨fun v => eval_eq_ok_of_extends ext, fun fault => eval_eq_invalid_of_extends ext,
    fun n h => ?_⟩
  obtain ⟨tokens, read, member, valueless⟩ := eval_eq_unresolved h
  exact ⟨⟨tokens, read, member⟩, valueless, eval_eq_unresolved_of_extends ext h⟩

/-- Two names with values; `only` says which of them are assigned. -/
def twoNames (only : String → Bool) : Names := fun n =>
  if only n then if n = "A" then some (.int 7) else if n = "B" then some (.str "x") else none
  else none

theorem eval_of_extends_twoNames :
    (twoNames (· = "A")).Extends (twoNames fun _ => true) ∧
    eval (twoNames fun _ => true) "-(A % 4)".toList = .ok (.int (-3)) ∧
    eval (twoNames fun _ => true) "A / 0 + B".toList =
      .error (.invalid (.operator (.arithmetic 7 .div 0))) ∧
    (∃ tokens, lex "A + (C * B)".toList = .ok tokens ∧ .name "C" ∈ tokens) ∧
    eval (twoNames fun _ => true) "A + (C * B)".toList = .error (.unresolved "C") := by
  have ext : (twoNames (· = "A")).Extends (twoNames fun _ => true) := by
    intro n v h
    obtain ⟨-, h⟩ := Option.ite_none_right_eq_some.mp h
    exact h
  have value : eval (twoNames (· = "A")) "-(A % 4)".toList = .ok (.int (-3)) := by decide +kernel
  have fault : eval (twoNames (· = "A")) "A / 0 + B".toList =
      .error (.invalid (.operator (.arithmetic 7 .div 0))) := by with_unfolding_all rfl
  have want : eval (twoNames (· = "A")) "A + (C * B)".toList = .error (.unresolved "C") := by
    with_unfolding_all rfl
  obtain ⟨named, -, wanted⟩ := (eval_of_extends ext _).2.2 _ want
  exact ⟨ext, (eval_of_extends ext _).1 _ value, (eval_of_extends ext _).2.1 _ fault, named,
    wanted rfl⟩

end ShaderInterface.Macro
