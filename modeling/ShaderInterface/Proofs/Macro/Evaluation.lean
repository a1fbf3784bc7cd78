import ShaderInterface.Proofs.Macro.Grammar
import ShaderInterface.Proofs.Macro.Token
import ShaderInterface.Proofs.Outcome

/-!
# Evaluation accepts the grammar

A text has a value exactly when its tokens derive as an expression whose signs and parentheses
nest at most `maxNesting` deep, and then the value is that of the expression
(`eval_eq_ok_iff_derives`).

The readers are compared with a relation between token lists and values, `Worth`. What a chain of
operands reads is `Joined`; soundness of a chain (`chain_sound`) and its completeness
(`chain_append`) are proved once, for any operand, and used for both levels of operators.
-/

namespace ShaderInterface.Macro

open Number

/-! ## The value of an expression as a function -/

/-- The value of an expression, computed by the operations of the library. -/
def Expr.value? (names : Names) : Expr → Option Literal
  | .literal v => some v
  | .name n => names n
  | .parens e | .plus e => e.value? names
  | .minus e => do
    let v ← e.value? names
    v.negate.toOption
  | .binary op l r => do
    let a ← l.value? names
    let b ← r.value? names
    (a.combine op b).toOption

theorem ofOperation_eq_ok_iff {x : Except OpFault Literal} {v : Literal} :
    ofOperation x = .ok v ↔ x = .ok v := by
  cases x <;> simp [ofOperation, Except.mapError]

theorem value?_binary_eq_some_iff {names : Names} {op : Op} {l r : Expr} {v : Literal} :
    (Expr.binary op l r).value? names = some v ↔
      ∃ a, l.value? names = some a ∧ ∃ b, r.value? names = some b ∧ a.combine op b = .ok v := by
  simp only [Expr.value?, Option.bind_eq_bind, Option.bind_eq_some_iff, toOption_eq_some_iff]

/-- A binary expression has the computed value where its operands have theirs. -/
theorem hasValue_binary_iff {names : Names} {op : Op} {l r : Expr} {v : Literal}
    (hl : ∀ a, l.HasValue names a ↔ l.value? names = some a)
    (hr : ∀ b, r.HasValue names b ↔ r.value? names = some b)
    (fits : ∀ a, l.HasValue names a → a.Fits) :
    (Expr.binary op l r).HasValue names v ↔ (Expr.binary op l r).value? names = some v := by
  rw [value?_binary_eq_some_iff]
  constructor
  · intro hv
    cases hv with
    | @binary _ _ _ a b _ ha hb app =>
      have combined := (combine_eq_ok_iff (fits a ha)).mpr app
      exact ⟨a, (hl a).mp ha, b, (hr b).mp hb, combined⟩
  · rintro ⟨a, ha, b, hb, combined⟩
    have left := (hl a).mpr ha
    exact .binary left ((hr b).mpr hb) ((combine_eq_ok_iff (fits a left)).mp combined)

/-- The computed value of a derived expression is the value that the rules give it. -/
theorem Derives.hasValue_iff {names : Names} (hn : names.Fit) {nt : Nonterminal}
    {ts : List Token} {e : Expr} (h : Derives nt ts e) (ht : ∀ t ∈ ts, t.Fits) {v : Literal} :
    e.HasValue names v ↔ e.value? names = some v := by
  induction h generalizing v with
  | term _ ih | unary _ ih | primary _ ih => exact ih ht
  | additive hl _ _ ihl ihr =>
    have htl := fun t m => ht t (List.mem_append_left _ m)
    have htr := fun t m => ht t (List.mem_append_right _ (List.mem_cons_of_mem _ m))
    exact hasValue_binary_iff (fun _ => ihl htl) (fun _ => ihr htr) fun _ => hl.fits hn htl
  | multiplicative hl _ _ ihl ihr =>
    have htl := fun t m => ht t (List.mem_append_left _ m)
    have htr := fun t m => ht t (List.mem_append_right _ (List.mem_cons_of_mem _ m))
    exact hasValue_binary_iff (fun _ => ihl htl) (fun _ => ihr htr) fun _ => hl.fits hn htl
  | plus _ ih =>
    refine ⟨fun hv => ?_, fun hv => .plus ((ih fun t m => ht t (List.mem_cons_of_mem _ m)).mpr hv)⟩
    cases hv with
    | plus h => exact (ih fun t m => ht t (List.mem_cons_of_mem _ m)).mp h
  | minus _ ih =>
    simp only [Expr.value?, Option.bind_eq_bind, Option.bind_eq_some_iff, toOption_eq_some_iff,
      negate_eq_ok_iff]
    constructor
    · intro hv
      cases hv with
      | minus h neg => exact ⟨_, (ih fun t m => ht t (List.mem_cons_of_mem _ m)).mp h, neg⟩
    · rintro ⟨a, ha, neg⟩
      exact .minus ((ih fun t m => ht t (List.mem_cons_of_mem _ m)).mpr ha) neg
  | literal =>
    refine ⟨fun hv => ?_, fun hv => ?_⟩
    · cases hv
      rfl
    · cases hv
      exact .literal _
  | name n =>
    refine ⟨fun hv => ?_, fun hv => .name hv⟩
    cases hv with
    | name h => exact h
  | parens _ ih =>
    have hts := fun t m => ht t (List.mem_cons_of_mem _ (List.mem_append_left _ m))
    refine ⟨fun hv => ?_, fun hv => .parens ((ih hts).mpr hv)⟩
    cases hv with
    | parens h => exact (ih hts).mp h

/-! ## Operands joined by operators -/

/-- `Joined P level ts v`: the tokens are operands, each with a value as `P` says, joined by
operators of the level, and `v` is the value when the operators are applied from the left. -/
inductive Joined (P : List Token → Literal → Prop) (level : Op → Bool) :
    List Token → Literal → Prop where
  | single {ts : List Token} {v : Literal} (h : P ts v) : Joined P level ts v
  | more {ts us : List Token} {a b v : Literal} {op : Op} (hl : Joined P level ts a)
      (hop : level op = true) (hr : P us b) (hv : a.combine op b = .ok v) :
      Joined P level (ts ++ .op op :: us) v

/-- What the reader reads is worth what it gives. -/
def Sound (P : List Token → Literal → Prop) (read : List Token → Reading) : Prop :=
  ∀ {tokens rest : List Token} {v : Literal}, read tokens = .ok (v, rest) →
    ∃ used, tokens = used ++ rest ∧ P used v

/-- No operator of the level comes first. -/
def EndsLevel (level : Op → Bool) (rest : List Token) : Prop :=
  ∀ op us, rest = .op op :: us → level op = false

/-- The reader reads all that has a worth, where what follows satisfies `stop`. -/
def Complete (P : List Token → Literal → Prop) (stop : List Token → Prop)
    (read : List Token → Reading) : Prop :=
  ∀ {used : List Token} {v : Literal}, P used v → ∀ rest, stop rest →
    read (used ++ rest) = .ok (v, rest)

section Chain

variable {P : List Token → Literal → Prop} {level : Op → Bool} {read : List Token → Reading}

theorem chainFrom_cons (fuel : Nat) (a : Literal) {op : Op} (hop : level op = true)
    (tokens : List Token) :
    chainFrom read level (fuel + 1) a (.op op :: tokens) = (do
      let (b, rest) ← read tokens
      let v ← ofOperation (a.combine op b)
      chainFrom read level fuel v rest) := by
  rw [chainFrom]
  exact if_pos hop

theorem chainFrom_of_endsLevel (fuel : Nat) (v : Literal) {rest : List Token}
    (h : EndsLevel level rest) : chainFrom read level fuel v rest = .ok (v, rest) := by
  cases fuel with
  | zero => rfl
  | succ fuel =>
    unfold chainFrom
    split
    · next op us =>
      rw [h op us rfl]
      rfl
    · rfl

/-- A chain goes on from operands that are joined already. -/
theorem chainFrom_sound (hr : Sound P read) (fuel : Nat) {ts tokens rest : List Token}
    {a v : Literal} (ha : Joined P level ts a)
    (h : chainFrom read level fuel a tokens = .ok (v, rest)) :
    ∃ used, tokens = used ++ rest ∧ Joined P level (ts ++ used) v := by
  induction fuel generalizing ts tokens a with
  | zero =>
    cases h
    exact ⟨[], rfl, by rwa [List.append_nil]⟩
  | succ fuel ih =>
    have stop : chainFrom read level (fuel + 1) a tokens = .ok (a, tokens) →
        ∃ used, tokens = used ++ rest ∧ Joined P level (ts ++ used) v := by
      intro done
      rw [done] at h
      cases h
      exact ⟨[], rfl, by rwa [List.append_nil]⟩
    by_cases first : ∃ op us, tokens = .op op :: us ∧ level op = true
    · obtain ⟨op, us, rfl, hop⟩ := first
      rw [chainFrom_cons _ _ hop] at h
      cases hb : read us with
      | error e => rw [hb] at h; cases h
      | ok out =>
        obtain ⟨b, rest'⟩ := out
        rw [hb] at h
        change (ofOperation (a.combine op b) >>= fun v => chainFrom read level fuel v rest') = _
          at h
        cases hv : ofOperation (a.combine op b) with
        | error e => rw [hv] at h; cases h
        | ok w =>
          rw [hv] at h
          obtain ⟨used, rfl, hu⟩ := hr hb
          have joined : Joined P level (ts ++ .op op :: used) w :=
            .more ha hop hu (ofOperation_eq_ok_iff.mp hv)
          obtain ⟨used', rfl, hj⟩ := ih joined h
          exact ⟨.op op :: (used ++ used'), by simp, by simpa using hj⟩
    · refine stop (chainFrom_of_endsLevel _ _ fun op us hus => ?_)
      simpa using fun hop => first ⟨op, us, hus, hop⟩

/-- A chain reads joined operands. -/
theorem chain_sound (hr : Sound P read) : Sound (Joined P level) (chain read level) := by
  intro tokens rest v h
  rw [chain] at h
  cases ha : read tokens with
  | error e => rw [ha] at h; cases h
  | ok out =>
    obtain ⟨a, rest'⟩ := out
    rw [ha] at h
    obtain ⟨used, rfl, hu⟩ := hr ha
    obtain ⟨used', rfl, hj⟩ := chainFrom_sound hr rest'.length (.single hu) h
    exact ⟨used ++ used', by simp, hj⟩

/-- Behind joined operands a chain stands at their value, with fuel for all that follows. -/
theorem chain_append {stop : List Token → Prop} (hr : Complete P stop read)
    (hop : ∀ op us, level op = true → stop (.op op :: us)) {ts : List Token} {v : Literal}
    (h : Joined P level ts v) (rest : List Token) (hs : stop rest) :
    ∃ fuel, rest.length ≤ fuel ∧
      chain read level (ts ++ rest) = chainFrom read level fuel v rest := by
  induction h generalizing rest with
  | single h =>
    refine ⟨rest.length, Nat.le_refl _, ?_⟩
    rw [chain, hr h rest hs]
    rfl
  | @more ts us a b v op _ hl hu hv ih =>
    obtain ⟨fuel, hfuel, hc⟩ := ih (.op op :: (us ++ rest)) (hop op _ hl)
    rw [List.length_cons, List.length_append] at hfuel
    obtain ⟨n, rfl⟩ : ∃ n, fuel = n + 1 := ⟨fuel - 1, by omega⟩
    refine ⟨n, by omega, ?_⟩
    have step : chainFrom read level (n + 1) a (.op op :: (us ++ rest)) =
        chainFrom read level n v rest := by
      rw [chainFrom_cons _ _ hl, hr hu rest hs]
      show (ofOperation (a.combine op b) >>= fun v => chainFrom read level n v rest) = _
      rw [hv]
      rfl
    rw [List.append_assoc, List.cons_append, hc, step]

/-- A chain reads all joined operands, where no operator of its level follows. -/
theorem chain_complete {stop : List Token → Prop} (hr : Complete P stop read)
    (hop : ∀ op us, level op = true → stop (.op op :: us)) :
    Complete (Joined P level) (fun rest => EndsLevel level rest ∧ stop rest)
      (chain read level) := by
  intro used v h rest hs
  obtain ⟨fuel, -, hc⟩ := chain_append hr hop h rest hs.2
  rw [hc, chainFrom_of_endsLevel _ _ hs.1]

end Chain

/-! ## What tokens are worth -/

/-- `Worth names nt depth ts v`: the tokens derive from the nonterminal as an expression of value
`v` whose signs and parentheses nest at most `depth` deep. -/
def Worth (names : Names) (nt : Nonterminal) (depth : Nat) (ts : List Token) (v : Literal) :
    Prop :=
  ∃ e, Derives nt ts e ∧ e.nesting ≤ depth ∧ e.value? names = some v

variable {names : Names} {depth : Nat} {ts : List Token} {v : Literal}

/-- A term is a chain of unary expressions. -/
theorem worth_term_iff :
    Worth names .term depth ts v ↔
      Joined (Worth names .unary depth) (fun op => !op.isAdditive) ts v := by
  constructor
  · rintro ⟨e, hd, hn, hv⟩
    generalize hnt : Nonterminal.term = nt at hd
    induction hd generalizing v with
    | unary h => exact .single ⟨_, h, hn, hv⟩
    | multiplicative hl level hr ihl =>
      obtain ⟨a, ha, b, hb, hc⟩ := value?_binary_eq_some_iff.mp hv
      obtain ⟨nl, nr⟩ := Nat.max_le.mp hn
      exact .more (ihl nl ha rfl) (by simp [level]) ⟨_, hr, nr, hb⟩ hc
    | _ => cases hnt
  · intro h
    induction h with
    | single h =>
      obtain ⟨e, hd, hn, hv⟩ := h
      exact ⟨e, .unary hd, hn, hv⟩
    | more _ hop hr hc ih =>
      obtain ⟨l, hl, nl, ha⟩ := ih
      obtain ⟨r, hr, nr, hb⟩ := hr
      exact ⟨.binary _ l r, .multiplicative hl (by simpa using hop) hr, Nat.max_le.mpr ⟨nl, nr⟩,
        value?_binary_eq_some_iff.mpr ⟨_, ha, _, hb, hc⟩⟩

/-- An expression is a chain of terms. -/
theorem worth_expr_iff :
    Worth names .expr depth ts v ↔ Joined (Worth names .term depth) Op.isAdditive ts v := by
  constructor
  · rintro ⟨e, hd, hn, hv⟩
    generalize hnt : Nonterminal.expr = nt at hd
    induction hd generalizing v with
    | term h => exact .single ⟨_, h, hn, hv⟩
    | additive hl level hr ihl =>
      obtain ⟨a, ha, b, hb, hc⟩ := value?_binary_eq_some_iff.mp hv
      obtain ⟨nl, nr⟩ := Nat.max_le.mp hn
      exact .more (ihl nl ha rfl) level ⟨_, hr, nr, hb⟩ hc
    | _ => cases hnt
  · intro h
    induction h with
    | single h =>
      obtain ⟨e, hd, hn, hv⟩ := h
      exact ⟨e, .term hd, hn, hv⟩
    | more _ hop hr hc ih =>
      obtain ⟨l, hl, nl, ha⟩ := ih
      obtain ⟨r, hr, nr, hb⟩ := hr
      exact ⟨.binary _ l r, .additive hl hop hr, Nat.max_le.mpr ⟨nl, nr⟩,
        value?_binary_eq_some_iff.mpr ⟨_, ha, _, hb, hc⟩⟩

/-! ## Operands -/

theorem worth_unary_of_literal {token : Token} (h : token.literal? = some v) :
    Worth names .unary depth [token] v :=
  ⟨.literal v, .primary (.literal h), Nat.zero_le _, rfl⟩

theorem worth_unary_of_name {n : String} (h : names n = some v) :
    Worth names .unary depth [.name n] v :=
  ⟨.name n, .primary (.name n), Nat.zero_le _, h⟩

theorem Worth.plus (h : Worth names .unary depth ts v) :
    Worth names .unary (depth + 1) (.op .add :: ts) v := by
  obtain ⟨e, hd, hn, hv⟩ := h
  exact ⟨.plus e, .plus hd, Nat.succ_le_succ hn, hv⟩

theorem Worth.minus {a : Literal} (h : Worth names .unary depth ts a) (neg : a.negate = .ok v) :
    Worth names .unary (depth + 1) (.op .sub :: ts) v := by
  obtain ⟨e, hd, hn, hv⟩ := h
  refine ⟨.minus e, .minus hd, Nat.succ_le_succ hn, ?_⟩
  simp only [Expr.value?, hv, Option.bind_eq_bind, Option.bind_some, neg, Except.toOption]

theorem Worth.parens (h : Worth names .expr depth ts v) :
    Worth names .unary (depth + 1) (.opening :: (ts ++ [.closing])) v := by
  obtain ⟨e, hd, hn, hv⟩ := h
  exact ⟨.parens e, .primary (.parens hd), Nat.succ_le_succ hn, hv⟩

/-- What an operand that was read can be: a literal, a name with a value, or a sign or an opening
parenthesis with what it stands before. -/
theorem operand_cases {tokens rest : List Token}
    (h : operand names depth tokens = .ok (v, rest)) :
    (∃ token : Token, tokens = token :: rest ∧ token.literal? = some v) ∨
    (∃ n, tokens = .name n :: rest ∧ names n = some v) ∨
    (∃ d us, depth = d + 1 ∧ tokens = .op .add :: us ∧
      operand names d us = .ok (v, rest)) ∨
    (∃ d us a, depth = d + 1 ∧ tokens = .op .sub :: us ∧
      operand names d us = .ok (a, rest) ∧ a.negate = .ok v) ∨
    (∃ d us, depth = d + 1 ∧ tokens = .opening :: us ∧
      sum (operand names d) us = .ok (v, .closing :: rest)) := by
  unfold operand at h
  split at h
  case h_2 | h_3 | h_4 =>
    cases h
    exact .inl ⟨_, rfl, rfl⟩
  case h_5 n us =>
    split at h
    · next w hw =>
      cases h
      exact .inr (.inl ⟨n, rfl, hw⟩)
    · cases h
  case h_9 d us =>
    cases ha : operand names d us with
    | error e => rw [ha] at h; cases h
    | ok out =>
      obtain ⟨a, rest'⟩ := out
      rw [ha] at h
      cases hv : ofOperation a.negate with
      | error e =>
        change (ofOperation a.negate >>= fun v => .ok (v, rest')) = _ at h
        rw [hv] at h
        cases h
      | ok w =>
        change (ofOperation a.negate >>= fun v => .ok (v, rest')) = _ at h
        rw [hv] at h
        cases h
        exact .inr (.inr (.inr (.inl ⟨d, us, a, rfl, rfl, ha, ofOperation_eq_ok_iff.mp hv⟩)))
  case h_10 d us => exact .inr (.inr (.inl ⟨d, us, rfl, rfl, h⟩))
  case h_11 d us =>
    cases hs : sum (operand names d) us with
    | error e => rw [hs] at h; cases h
    | ok out =>
      obtain ⟨a, rest'⟩ := out
      rw [hs] at h
      cases rest' with
      | nil => cases h
      | cons token rest' =>
        cases token <;> cases h
        exact .inr (.inr (.inr (.inr ⟨d, us, rfl, rfl, hs⟩)))
  all_goals cases h

/-- A sum over operands that are read soundly is read soundly. -/
theorem sum_sound {read : List Token → Reading} (hr : Sound (Worth names .unary depth) read) :
    Sound (Worth names .expr depth) (sum read) := by
  intro tokens rest v h
  have term : Sound (Worth names .term depth) (chain read fun op => !op.isAdditive) := by
    intro tokens rest v h
    obtain ⟨used, rfl, hu⟩ := chain_sound hr h
    exact ⟨used, rfl, worth_term_iff.mpr hu⟩
  obtain ⟨used, rfl, hu⟩ := chain_sound term h
  exact ⟨used, rfl, worth_expr_iff.mpr hu⟩

/-- A sum over operands that are read completely is read completely, where no operator follows. -/
theorem sum_complete {read : List Token → Reading}
    (hr : Complete (Worth names .unary depth) (fun _ => True) read) :
    Complete (Worth names .expr depth) (EndsLevel fun _ => true) (sum read) := by
  have term : Complete (Worth names .term depth) (EndsLevel fun op => !op.isAdditive)
      (chain read fun op => !op.isAdditive) := by
    intro used v h rest hs
    exact chain_complete hr (fun _ _ _ => trivial) (worth_term_iff.mp h) rest ⟨hs, trivial⟩
  have stops : ∀ (op : Op) (us : List Token), op.isAdditive = true →
      EndsLevel (fun op => !op.isAdditive) (.op op :: us) := by
    intro op us hop op' us' heq
    cases heq
    simp [hop]
  intro used v h rest hs
  have none : ∀ op us, rest ≠ .op op :: us := fun op us heq => by
    simpa using hs op us heq
  refine chain_complete term stops (worth_expr_iff.mp h) rest ⟨?_, ?_⟩
  · exact fun op us heq => absurd heq (none op us)
  · exact fun op us heq => absurd heq (none op us)

/-- Operands are read soundly. -/
theorem operand_sound (names : Names) (depth : Nat) :
    Sound (Worth names .unary depth) (operand names depth) := by
  induction depth using Nat.strongRecOn with
  | ind depth ih =>
    intro tokens rest v h
    rcases operand_cases h with ⟨token, rfl, hv⟩ | ⟨n, rfl, hv⟩ | ⟨d, us, rfl, rfl, hv⟩ |
      ⟨d, us, a, rfl, rfl, hv, neg⟩ | ⟨d, us, rfl, rfl, hv⟩
    · exact ⟨[token], rfl, worth_unary_of_literal hv⟩
    · exact ⟨[.name n], rfl, worth_unary_of_name hv⟩
    · obtain ⟨used, rfl, hu⟩ := ih d (Nat.lt_succ_self d) hv
      exact ⟨.op .add :: used, rfl, hu.plus⟩
    · obtain ⟨used, rfl, hu⟩ := ih d (Nat.lt_succ_self d) hv
      exact ⟨.op .sub :: used, rfl, hu.minus neg⟩
    · obtain ⟨used, rfl, hu⟩ := sum_sound (ih d (Nat.lt_succ_self d)) hv
      exact ⟨.opening :: (used ++ [.closing]), by simp, hu.parens⟩

theorem operand_literal {token : Token} (h : token.literal? = some v) (rest : List Token) :
    operand names depth (token :: rest) = .ok (v, rest) := by
  cases token <;> cases h <;> cases depth <;> rfl

theorem operand_name {n : String} (h : names n = some v) (rest : List Token) :
    operand names depth (.name n :: rest) = .ok (v, rest) := by
  cases depth <;> simp only [operand, h]

/-- Operands are read completely, whatever follows. The induction is on the depth: a sign or a
parenthesis leaves one level less for what it stands before. -/
theorem operand_complete (names : Names) (depth : Nat) :
    Complete (Worth names .unary depth) (fun _ => True) (operand names depth) := by
  induction depth using Nat.strongRecOn with
  | ind depth ih =>
    rintro used v ⟨e, hd, hn, hv⟩ rest -
    -- an expression that nests leaves a depth for what it nests
    have deeper : ∀ {n : Nat}, n + 1 ≤ depth → ∃ d, depth = d + 1 ∧ n ≤ d := fun {n} h =>
      ⟨depth - 1, by omega, by omega⟩
    cases hd with
    | plus hd =>
      obtain ⟨d, rfl, le⟩ := deeper hn
      exact ih d (Nat.lt_succ_self d) ⟨_, hd, le, hv⟩ rest trivial
    | minus hd =>
      obtain ⟨d, rfl, le⟩ := deeper hn
      simp only [Expr.value?, Option.bind_eq_bind, Option.bind_eq_some_iff,
        toOption_eq_some_iff] at hv
      obtain ⟨a, ha, neg⟩ := hv
      rw [List.cons_append, operand, ih d (Nat.lt_succ_self d) ⟨_, hd, le, ha⟩ rest trivial]
      show (ofOperation a.negate >>= fun v => .ok (v, rest)) = _
      rw [neg]
      rfl
    | primary hd =>
      cases hd with
      | literal h =>
        cases hv
        exact operand_literal h rest
      | name n => exact operand_name hv rest
      | @parens ts e hd =>
        obtain ⟨d, rfl, le⟩ := deeper hn
        have inner := sum_complete (ih d (Nat.lt_succ_self d)) ⟨e, hd, le, hv⟩
          (.closing :: rest) (fun op us heq => by cases heq)
        rw [List.cons_append, List.append_assoc, List.singleton_append, operand, inner]
        rfl

/-! ## Whole texts -/

theorem evalTokens_eq_ok_iff {tokens : List Token} :
    evalTokens names tokens = .ok v ↔ expression names tokens = .ok (v, []) := by
  cases tokens with
  | nil => exact ⟨fun h => (by cases h), fun h => (by cases h)⟩
  | cons token tokens =>
    unfold evalTokens
    cases h : expression names (token :: tokens) with
    | error e => exact ⟨fun h => (by cases h), fun h => (by cases h)⟩
    | ok out =>
      obtain ⟨w, rest⟩ := out
      cases rest with
      | nil => exact ⟨fun h => (by cases h; rfl), fun h => (by cases h; rfl)⟩
      | cons => exact ⟨fun h => (by cases h), fun h => (by cases h)⟩

/-- A list of tokens has a value exactly when the whole of it is worth the value. -/
theorem evalTokens_eq_ok_iff_worth {tokens : List Token} :
    evalTokens names tokens = .ok v ↔ Worth names .expr maxNesting tokens v := by
  rw [evalTokens_eq_ok_iff]
  constructor
  · intro h
    obtain ⟨used, heq, hu⟩ := sum_sound (operand_sound names maxNesting) h
    rw [List.append_nil] at heq
    exact heq ▸ hu
  · intro h
    have := sum_complete (operand_complete names maxNesting) h [] (fun op us heq => by cases heq)
    rwa [List.append_nil] at this

theorem ofNat?_fits {n : Nat} {token : Token} (h : Token.ofNat? n = some token) : token.Fits := by
  simp only [Token.ofNat?, Option.ite_none_right_eq_some, Option.some.injEq] at h
  obtain ⟨lt, rfl⟩ := h
  rintro v ⟨⟩
  simp only [Literal.Fits, inInt64, Bool.and_eq_true, decide_eq_true_eq]
  omega

theorem readNumber_fits {s rest : List Char} {token : Token}
    (h : readNumber s = .ok (token, rest)) : token.Fits := by
  have hexadecimal : ∀ {s : List Char}, readHexadecimal s = .ok (token, rest) → token.Fits := by
    intro s h
    simp only [readHexadecimal] at h
    split at h
    · next token' heq =>
      cases h
      split at heq
      · cases heq
      · exact ofNat?_fits heq
    · cases h
  unfold readNumber at h
  split at h
  · exact hexadecimal h
  · exact hexadecimal h
  · simp only [readDecimal] at h
    split at h
    · cases h
      rintro v ⟨⟩
      trivial
    · split at h
      · cases h
        rintro v ⟨⟩
        trivial
      · split at h
        · next heq =>
          cases h
          exact ofNat?_fits heq
        · cases h

/-- The integers that are read fit 64 bits. -/
theorem readToken_fits {c : Char} {s rest : List Char} {token : Token}
    (h : readToken c s = .ok (token, rest)) : token.Fits := by
  unfold readToken at h
  split at h
  · exact readNumber_fits h
  split at h
  · split at h
    · cases h
      rintro v ⟨⟩
      trivial
    · cases h
  · split at h
    · cases h
      rintro v ⟨⟩
    · split at h
      · next heq =>
        cases h
        unfold Token.ofChar? at heq
        split at heq
        · cases heq
          rintro v ⟨⟩
        split at heq
        · cases heq
          rintro v ⟨⟩
        · obtain ⟨op, -, rfl⟩ := Option.map_eq_some_iff.mp heq
          rintro v ⟨⟩
      · cases h

theorem lex_fits {s : List Char} {tokens : List Token} (h : lex s = .ok tokens) :
    ∀ t ∈ tokens, t.Fits := forall_mem_lex (fun _ _ _ _ _ => readToken_fits) h

/-- A text has a value exactly when its tokens are worth the value. -/
theorem eval_eq_ok_iff_worth {s : List Char} :
    eval names s = .ok v ↔
      ∃ tokens, lex s = .ok tokens ∧ Worth names .expr maxNesting tokens v := by
  unfold eval
  cases lex s with
  | error fault => exact ⟨fun h => (by cases h), fun ⟨_, h, _⟩ => (by cases h)⟩
  | ok tokens =>
    show evalTokens names tokens = .ok v ↔ _
    rw [evalTokens_eq_ok_iff_worth]
    exact ⟨fun h => ⟨tokens, rfl, h⟩, fun ⟨_, h, hw⟩ => (by cases h; exact hw)⟩

/-- The value of a text fits 64 bits where the assigned values do. -/
theorem eval_fits (hn : names.Fit) {s : List Char} (h : eval names s = .ok v) : v.Fits := by
  obtain ⟨tokens, hl, e, hd, -, hv⟩ := eval_eq_ok_iff_worth.mp h
  have fits := lex_fits hl
  exact hd.fits hn fits ((hd.hasValue_iff hn fits).mpr hv)

end ShaderInterface.Macro
