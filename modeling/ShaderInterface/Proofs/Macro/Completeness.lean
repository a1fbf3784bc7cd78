import Mathlib.Data.List.Dedup
import Mathlib.Data.Nat.Find
import ShaderInterface.Proofs.Macro.Resolution

/-!
# Resolution finds every evaluation order

With as many passes as there are names, resolution succeeds exactly when the definitions have an
evaluation order, whatever the order of the definitions, and more passes change nothing
(`resolve_complete`).

Two facts carry this. The values that are found agree with those of every evaluation order
(`Table.Found.extends`), so that no definition can turn out to be at fault on the way. And as long
as definitions wait, the first name of the order that has no value yet can be evaluated
(`Table.Awaits.exists_ready`), so that every pass finds a value.
-/

namespace ShaderInterface.Macro

/-- Permuted definitions of distinct names have the same evaluation orders. -/
theorem EvaluationOrder.of_perm {definitions permuted : List Definition} {order : List String}
    {values : Names} (nodup : (definitions.map (·.name)).Nodup) (perm : definitions.Perm permuted)
    (ho : EvaluationOrder definitions order values) : EvaluationOrder permuted order values where
  nodup := ho.nodup
  mem_iff := by
    intro name
    rw [ho.mem_iff]
    simp only [perm.mem_iff]
  evaluates := by
    intro i hi
    obtain ⟨d, v, hd, hv, heval⟩ := ho.evaluates i hi
    have nodup' : (permuted.map (·.name)).Nodup := (perm.map _).nodup_iff.mp nodup
    refine ⟨d, v, ?_, hv, heval⟩
    rw [latest?_eq_some_iff_of_nodup nodup] at hd
    rw [latest?_eq_some_iff_of_nodup nodup', ← perm.mem_iff]
    exact hd

namespace Table

variable {definitions all ds ws : List Definition} {order : List String} {values : Names}
  {table table' : Table} {number limit remaining : Nat}

/-! ## Agreement and progress -/

/-- Values that were found are those of every evaluation order. -/
theorem Found.extends (h : Found (effective definitions) table)
    (ho : EvaluationOrder definitions order values) : Names.Extends table.get? values := by
  induction h with
  | empty =>
    intro n v hv
    rw [get?_empty] at hv
    cases hv
  | @add table d v _ hd _ hv ih =>
    obtain ⟨w, hw, heval⟩ := ho.eval_eq_ok (mem_effective_iff.mp hd)
    have same : w = v := by
      have := eval_eq_ok_of_extends ih hv
      rw [heval] at this
      cases this
      rfl
    intro n u hu
    rw [get?_add] at hu
    split at hu
    · next eq =>
      cases hu
      rw [← eq, ← same, hw]
    · exact ih n u hu

/-- The table has the values of all names before the first name of the order that it lacks. -/
theorem Found.exists_first (h : Found (effective definitions) table)
    (ho : EvaluationOrder definitions order values) (lacks : ∃ n ∈ order, n ∉ table.order) :
    ∃ i, ∃ hi : i < order.length, order[i] ∉ table.order ∧
      Names.Extends (values.only (order.take i)) table.get? := by
  classical
  have lacks : ∃ i, ∃ hi : i < order.length, order[i] ∉ table.order := by
    obtain ⟨n, hn, fresh⟩ := lacks
    obtain ⟨i, hi, rfl⟩ := List.mem_iff_getElem.mp hn
    exact ⟨i, hi, fresh⟩
  obtain ⟨hi, fresh⟩ := Nat.find_spec lacks
  refine ⟨Nat.find lacks, hi, fresh, fun n v hv => ?_⟩
  obtain ⟨m, hv⟩ := Option.ite_none_right_eq_some.mp hv
  obtain ⟨j, hj, rfl⟩ := List.mem_take_iff_getElem.mp m
  have before : j < Nat.find lacks := Nat.lt_of_lt_of_le hj (Nat.min_le_left _ _)
  have found : order[j] ∈ table.order := by
    by_contra missing
    exact Nat.find_min lacks before ⟨Nat.lt_trans before hi, missing⟩
  obtain ⟨w, hw⟩ := Option.isSome_iff_exists.mp ((h.isSome_get?_iff _).mpr found)
  rw [hw, ← hv]
  exact (h.extends ho _ _ hw).symm

/-- Of the definitions that wait one can be evaluated. -/
theorem Awaits.exists_ready (h : Awaits (effective definitions) table ws)
    (ho : EvaluationOrder definitions order values) (ne : ws ≠ []) :
    ∃ d ∈ ws, ∃ v, table.eval d.value.toList = .ok v := by
  obtain ⟨d, hd⟩ := List.exists_mem_of_ne_nil ws ne
  obtain ⟨hall, fresh⟩ := (h.mem_iff d).mp hd
  have defined : d.name ∈ order :=
    (ho.mem_iff _).mpr ⟨d, (name_of_latest? (mem_effective_iff.mp hall)).1, rfl⟩
  obtain ⟨i, hi, lacks, ext⟩ := h.found.exists_first ho ⟨d.name, defined, fresh⟩
  obtain ⟨e, v, he, -, heval⟩ := ho.evaluates i hi
  have hname := (name_of_latest? he).2
  rw [← hname] at he lacks
  exact ⟨e, (h.mem_iff e).mpr ⟨mem_effective_iff.mpr he, lacks⟩, v,
    eval_eq_ok_of_extends ext heval⟩

/-! ## Passes that fail -/

/-- A pass fails at the first definition whose value is at fault under the table at hand. -/
theorem pass_eq_error_iff {failure : Failure} :
    (pass number ds table).run.value = .error failure ↔
      ∃ before d after t ws fault, ds = before ++ d :: after ∧ Pass before table t ws ∧
        t.eval d.value.toList = .error (.invalid fault) ∧
        failure = ⟨d.name, .unreadable d.value fault⟩ := by
  constructor
  · intro h
    induction ds generalizing table with
    | nil => cases h
    | cons d ds ih =>
      cases hd : table.eval d.value.toList with
      | ok v =>
        rw [value_pass_found hd] at h
        obtain ⟨before, e, after, t, ws, fault, rfl, hp, he, rfl⟩ := ih h
        exact ⟨d :: before, e, after, t, ws, fault, rfl, .found hd hp, he, rfl⟩
      | error err =>
        cases err with
        | invalid fault =>
          rw [value_pass_invalid hd] at h
          cases h
          exact ⟨[], d, ds, table, [], fault, rfl, .nil _, hd, rfl⟩
        | unresolved name =>
          rw [value_pass_waits hd] at h
          cases hp : (pass number ds table).run.value with
          | ok out => rw [hp] at h; cases h
          | error f =>
            rw [hp] at h
            cases h
            obtain ⟨before, e, after, t, ws, fault, rfl, hb, he, rfl⟩ := ih hp
            exact ⟨d :: before, e, after, t, d :: ws, fault, rfl, .waits hd hb, he, rfl⟩
  · rintro ⟨before, d, after, t, ws, fault, rfl, hp, hd, rfl⟩
    induction hp with
    | nil => exact value_pass_invalid hd
    | found h _ ih =>
      rw [List.cons_append, value_pass_found h]
      exact ih hd
    | waits h _ ih =>
      rw [List.cons_append, value_pass_waits h, ih hd]
      rfl

/-- No pass fails where the definitions have an evaluation order. -/
theorem Awaits.exists_pass (h : Awaits (effective definitions) table ds)
    (ho : EvaluationOrder definitions order values) (number : Nat) :
    ∃ table' ws, (pass number ds table).run.value = .ok (table', ws) := by
  cases hp : (pass number ds table).run.value with
  | ok out => exact ⟨out.1, out.2, rfl⟩
  | error failure =>
    exfalso
    obtain ⟨before, d, after, t, ws, fault, rfl, hb, hd, -⟩ := pass_eq_error_iff.mp hp
    have nodup : (before.map (·.name)).Nodup := by
      have := h.nodup
      rw [List.map_append] at this
      exact this.of_append_left
    have found : Found (effective definitions) t :=
      (hb.result h.found nodup fun e he => (h.mem_iff e).mp (List.mem_append_left _ he)).found
    have effective : d ∈ effective definitions :=
      ((h.mem_iff d).mp (List.mem_append_right _ List.mem_cons_self)).1
    obtain ⟨v, -, heval⟩ := ho.eval_eq_ok (mem_effective_iff.mp effective)
    rw [eval_eq_invalid_of_extends (found.extends ho) hd] at heval
    cases heval

/-! ## Runs with enough passes -/

/-- A run with a pass for every definition that waits succeeds where there is an evaluation
order. -/
theorem Awaits.exists_run (h : Awaits (effective definitions) table ds)
    (ho : EvaluationOrder definitions order values) (len : ds.length ≤ remaining) :
    ∃ table', (run limit remaining ds table).run.value = .ok table' := by
  induction remaining generalizing ds table with
  | zero =>
    obtain rfl : ds = [] := List.length_eq_zero_iff.mp (Nat.le_zero.mp len)
    exact ⟨table, value_run_nil ..⟩
  | succ remaining ih =>
    cases ds with
    | nil => exact ⟨table, value_run_nil ..⟩
    | cons d ds =>
      obtain ⟨t, ws, hp⟩ := h.exists_pass ho (limit - remaining)
      have hp := pass_eq_ok_iff.mp hp
      have ne : ws.length ≠ (d :: ds).length := by
        intro eq
        obtain ⟨e, he, v, hv⟩ := h.exists_ready ho (List.cons_ne_nil d ds)
        obtain ⟨name, hw⟩ := (hp.eq_of_length_eq eq).2.2 e he
        rw [hv] at hw
        cases hw
      have shorter := hp.length_le
      obtain ⟨table', hr⟩ := ih (hp.awaits h) (by rw [List.length_cons] at *; omega)
      exact ⟨table', run_succ_eq_ok_iff.mpr ⟨t, ws, hp, ne, hr⟩⟩

theorem blocker?_eq_some_iff {d : Definition} {name : String} :
    table.blocker? d = some name ↔ table.eval d.value.toList = .error (.unresolved name) := by
  unfold blocker?
  split <;> simp_all

/-- A stall is put down to a definition that stops at a name which none that waits has; where each
stops at a name that one of them has, to a cycle. -/
theorem stalled_cases (table : Table) (ws : List Definition) :
    (∃ d ∈ ws, ∃ missing, table.eval d.value.toList = .error (.unresolved missing) ∧
      missing ∉ ws.map (·.name) ∧ stalled table ws = ⟨d.name, .undefinedName missing⟩) ∨
    (∀ d ∈ ws, ∀ missing, table.eval d.value.toList = .error (.unresolved missing) →
      missing ∈ ws.map (·.name)) ∧
      stalled table ws = ⟨(ws.map (·.name)).headD "", .circular (ws.map (·.name))⟩ := by
  rw [stalled]
  cases h : ws.findSome? fun d => do
      let missing ← table.blocker? d
      if missing ∈ ws.map (·.name) then none
      else some (⟨d.name, .undefinedName missing⟩ : Failure) with
  | none =>
    refine .inr ⟨fun d hd missing lacks => ?_, rfl⟩
    have none := List.findSome?_eq_none_iff.mp h d hd
    rw [blocker?_eq_some_iff.mpr lacks] at none
    simpa using none
  | some failure =>
    obtain ⟨d, hd, found⟩ := List.exists_of_findSome?_eq_some h
    obtain ⟨missing, lacks, hm⟩ := Option.bind_eq_some_iff.mp found
    split at hm
    · cases hm
    · next other =>
      cases hm
      exact .inl ⟨d, hd, missing, blocker?_eq_some_iff.mp lacks, other, rfl⟩

theorem stalled_cause_ne_passLimit (table : Table) (ws : List Definition) (passes : Nat) :
    (stalled table ws).cause ≠ .passLimit passes := by
  obtain ⟨d, -, missing, -, -, eq⟩ | ⟨-, eq⟩ := stalled_cases table ws <;> rw [eq] <;>
    exact fun h => by cases h

/-- A run with a pass for every definition that waits does not use up its passes. -/
theorem run_cause_ne_passLimit {failure : Failure} (len : ds.length ≤ remaining)
    (h : (run limit remaining ds table).run.value = .error failure) (passes : Nat) :
    failure.cause ≠ .passLimit passes := by
  induction remaining generalizing ds table with
  | zero =>
    obtain rfl : ds = [] := List.length_eq_zero_iff.mp (Nat.le_zero.mp len)
    rw [value_run_nil] at h
    cases h
  | succ remaining ih =>
    cases ds with
    | nil => rw [value_run_nil] at h; cases h
    | cons d ds =>
      rw [value_run_succ] at h
      cases hp : (pass (limit - remaining) (d :: ds) table).run.value with
      | error f =>
        rw [hp] at h
        cases h
        obtain ⟨-, e, -, -, -, fault, -, -, -, rfl⟩ := pass_eq_error_iff.mp hp
        exact fun eq => by cases eq
      | ok out =>
        rw [hp] at h
        change (if out.2.length = (d :: ds).length then _ else _) = _ at h
        split at h
        · cases h
          exact stalled_cause_ne_passLimit _ _ passes
        · next ne =>
          have shorter := (pass_eq_ok_iff.mp hp).length_le
          exact ih (by rw [List.length_cons] at *; omega) h

/-- More passes do not change a successful run. -/
theorem run_eq_ok_of_le {limit' remaining' : Nat} (le : remaining ≤ remaining')
    (h : (run limit remaining ds table).run.value = .ok table') :
    (run limit' remaining' ds table).run.value = .ok table' := by
  induction remaining generalizing ds table remaining' with
  | zero =>
    cases ds with
    | nil => cases h; exact value_run_nil ..
    | cons d ds => cases h
  | succ remaining ih =>
    cases ds with
    | nil =>
      rw [value_run_nil] at h
      cases h
      exact value_run_nil ..
    | cons d ds =>
      obtain ⟨n, rfl⟩ : ∃ n, remaining' = n + 1 := ⟨remaining' - 1, by omega⟩
      obtain ⟨t, ws, hp, ne, hr⟩ := run_succ_eq_ok_iff.mp h
      exact run_succ_eq_ok_iff.mpr ⟨t, ws, hp, ne, ih (by omega) hr⟩

/-! ## Resolution -/

/-- As many definitions count as there are names. -/
theorem length_effective (definitions : List Definition) :
    (effective definitions).length = (definitions.map (·.name)).dedup.length := by
  have perm : ((effective definitions).map (·.name)).Perm (definitions.map (·.name)).dedup := by
    refine (List.perm_ext_iff_of_nodup (nodup_effective _) (List.nodup_dedup _)).mpr fun name => ?_
    rw [mem_names_effective_iff, List.mem_dedup, List.mem_map]
  rw [← perm.length_eq, List.length_map]

/-- With a pass for every name, resolution succeeds where there is an evaluation order. -/
theorem exists_resolve_iff (enough : (definitions.map (·.name)).dedup.length ≤ limit) :
    (∃ table, (resolve definitions limit).run.value = .ok table) ↔
      ∃ order values, EvaluationOrder definitions order values := by
  constructor
  · rintro ⟨table, h⟩
    exact ⟨table.order, table.get?, evaluationOrder_resolve h⟩
  · rintro ⟨order, values, ho⟩
    rw [← length_effective] at enough
    exact (awaits_effective definitions).exists_run ho enough

/-- Two tables that were resolved from definitions with the same evaluation orders have the same
values. -/
theorem values_eq_of_resolve {permuted : List Definition} {limit' : Nat}
    (nodup : (definitions.map (·.name)).Nodup) (perm : definitions.Perm permuted)
    (h : (resolve definitions limit).run.value = .ok table)
    (h' : (resolve permuted limit').run.value = .ok table') : table.values = table'.values := by
  have nodup' : (permuted.map (·.name)).Nodup := (perm.map _).nodup_iff.mp nodup
  have found := (awaits_nil_of_run h (awaits_effective definitions)).found
  have found' := (awaits_nil_of_run h' (awaits_effective permuted)).found
  have ho := (evaluationOrder_resolve h).of_perm nodup perm
  have ho' := (evaluationOrder_resolve h').of_perm nodup' perm.symm
  apply Std.ExtTreeMap.ext_getElem?
  intro name
  apply Option.ext
  intro v
  exact ⟨found.extends ho' name v, found'.extends ho name v⟩

/-- Permuted definitions of distinct names resolve alike, with a pass for every name. -/
theorem exists_resolve_of_perm {permuted : List Definition}
    (nodup : (definitions.map (·.name)).Nodup) (perm : definitions.Perm permuted)
    (enough : definitions.length ≤ limit)
    (h : (resolve definitions limit).run.value = .ok table) :
    ∃ table', (resolve permuted limit).run.value = .ok table' := by
  have nodup' : (permuted.map (·.name)).Nodup := (perm.map _).nodup_iff.mp nodup
  have all : (permuted.map (·.name)).dedup.length ≤ limit := by
    rwa [nodup'.dedup, List.length_map, ← perm.length_eq]
  have ho := (evaluationOrder_resolve h).of_perm nodup perm
  exact (exists_resolve_iff all).mpr ⟨table.order, table.get?, ho⟩

end Table

/-- **Resolution finds every evaluation order.** With at least as many passes as there are names,
resolution succeeds exactly when the definitions have an evaluation order, and the passes are never
what it fails of. Permuted definitions of distinct names give the same values, or fail alike. More
passes than enough change nothing, not even the order of the table. -/
theorem resolve_complete (definitions : List Definition) :
    (∀ limit, (definitions.map (·.name)).dedup.length ≤ limit →
      ((∃ table, (Table.resolve definitions limit).run.value = .ok table) ↔
        ∃ order values, EvaluationOrder definitions order values) ∧
      ∀ failure passes, (Table.resolve definitions limit).run.value = .error failure →
        failure.cause ≠ .passLimit passes) ∧
    (∀ permuted limit, (definitions.map (·.name)).Nodup → definitions.Perm permuted →
      definitions.length ≤ limit →
      (∃ table table', (Table.resolve definitions limit).run.value = .ok table ∧
        (Table.resolve permuted limit).run.value = .ok table' ∧ table.values = table'.values) ∨
      ∃ failure failure', (Table.resolve definitions limit).run.value = .error failure ∧
        (Table.resolve permuted limit).run.value = .error failure') ∧
    ∀ limit limit' table, limit ≤ limit' →
      (Table.resolve definitions limit).run.value = .ok table →
      (Table.resolve definitions limit').run.value = .ok table := by
  refine ⟨fun limit enough => ⟨Table.exists_resolve_iff enough, ?_⟩, ?_, ?_⟩
  · intro failure passes h
    rw [← Table.length_effective] at enough
    exact Table.run_cause_ne_passLimit enough h passes
  · intro permuted limit nodup perm enough
    cases h : (Table.resolve definitions limit).run.value with
    | ok table =>
      obtain ⟨table', h'⟩ := Table.exists_resolve_of_perm nodup perm enough h
      exact .inl ⟨table, table', rfl, h', Table.values_eq_of_resolve nodup perm h h'⟩
    | error failure =>
      cases h' : (Table.resolve permuted limit).run.value with
      | error failure' => exact .inr ⟨failure, failure', rfl, rfl⟩
      | ok table' =>
        have nodup' : (permuted.map (·.name)).Nodup := (perm.map _).nodup_iff.mp nodup
        rw [perm.length_eq] at enough
        obtain ⟨table, h''⟩ := Table.exists_resolve_of_perm nodup' perm.symm enough h'
        rw [h] at h''
        cases h''
  · intro limit limit' table le h
    exact Table.run_eq_ok_of_le le h

/-- Definitions of distinct names, the first of which uses the last. -/
def backward : List Definition := [⟨"A", "B + 1", 1⟩, ⟨"B", "C * 2", 2⟩, ⟨"C", "5", 3⟩]

theorem resolve_complete_backward :
    (∃ order values, EvaluationOrder backward order values) ∧
    (∃ table table', (Table.resolve backward 3).run.value = .ok table ∧
      (Table.resolve backward.reverse 3).run.value = .ok table' ∧ table.values = table'.values) ∧
    ∃ table, table.order = ["C", "B", "A"] ∧ (Table.resolve backward 3).run.value = .ok table ∧
      (Table.resolve backward 100).run.value = .ok table := by
  have h : (Table.resolve backward 3).run.value =
      .ok (((({} : Table).add "C" (.int 5)).add "B" (.int 10)).add "A" (.int 11)) := by
    with_unfolding_all rfl
  obtain ⟨complete, stable, monotone⟩ := resolve_complete backward
  refine ⟨?_, ?_, _, rfl, h, monotone 3 100 _ (by decide) h⟩
  · exact (complete 3 (by decide)).1.mp ⟨_, h⟩
  · obtain both | ⟨failure, failure', fails, -⟩ :=
      stable backward.reverse 3 (by decide) (List.reverse_perm backward).symm (by decide)
    · exact both
    · rw [h] at fails
      cases fails

end ShaderInterface.Macro
