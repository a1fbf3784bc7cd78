import Mathlib.Data.Fintype.Card
import Mathlib.Data.Set.Finite.Basic
import Mathlib.Order.WellFounded
import ShaderInterface.Proofs.Macro.Completeness
import ShaderInterface.Proofs.Macro.Reference

/-!
# Resolution that stalls

Where a pass finds no value, resolution tells what holds it up: a name that no definition has, or a
cycle. What it tells is true (`stall_diagnosed`). A table with which no further macro can be
evaluated (`Table.Stuck`) holds the same values however it was come by (`Table.Stuck.values_eq`), so
the macros that are resolved at a stall are the same for every number of passes, and no number of
them resolves the rest (`Table.Stuck.unresolvable`).
-/

namespace ShaderInterface.Macro

/-- `Refers definitions m n`: the value of the macro `m` uses the name `n`. -/
def Refers (definitions : List Definition) (m n : String) : Prop :=
  ∃ d tokens, latest? definitions m = some d ∧ lex d.value.toList = .ok tokens ∧ .name n ∈ tokens

/-- However many passes are taken, the definitions do not resolve. -/
def Unresolvable (definitions : List Definition) : Prop :=
  ∀ limit, ∃ failure, (Table.resolve definitions limit).run.value = .error failure

/-- Where each element of a list has a related one in the list, some element is reached from
itself. -/
theorem exists_cycle {α : Type} {R : α → α → Prop} {as : List α} (ne : as ≠ [])
    (next : ∀ a ∈ as, ∃ b ∈ as, R a b) :
    ∃ a ∈ as, Relation.TransGen (fun a b => b ∈ as ∧ R a b) a a := by
  by_contra none
  let reaches : {a // a ∈ as} → {a // a ∈ as} → Prop := fun a b =>
    Relation.TransGen (fun a b => b ∈ as ∧ R a b) b.1 a.1
  have : IsTrans _ reaches := ⟨fun _ _ _ hab hbc => hbc.trans hab⟩
  have : Std.Irrefl reaches := ⟨fun a h => none ⟨a.1, a.2, h⟩⟩
  have finite : Finite {a // a ∈ as} := as.finite_toSet
  obtain ⟨a, ha⟩ := List.exists_mem_of_ne_nil as ne
  -- without a cycle there is an element from which none is reached
  obtain ⟨⟨m, hm⟩, -, least⟩ := (Finite.wellFounded_of_trans_of_irrefl reaches).has_min Set.univ
    ⟨⟨a, ha⟩, trivial⟩
  obtain ⟨b, hb, hmb⟩ := next m hm
  exact least ⟨b, hb⟩ trivial (.single ⟨hb, hmb⟩)

namespace Table

variable {definitions all ds ws : List Definition} {table table' : Table} {limit remaining : Nat}
  {failure : Failure}

/-! ## Tables with which nothing goes on -/

/-- The table holds macros that were evaluated one at a time, and each of the others stops at a name
without a value. -/
structure Stuck (definitions : List Definition) (table : Table) : Prop where
  found : Found (effective definitions) table
  blocked : ∀ n d, latest? definitions n = some d → n ∉ table.order →
    ∃ missing, table.eval d.value.toList = .error (.unresolved missing)

/-- A definition that counts has the value to which it evaluates, once it has one. -/
theorem Found.eval_eq_ok (h : Found (effective definitions) table) {n : String} {d : Definition}
    (hd : latest? definitions n = some d) (m : n ∈ table.order) :
    ∃ v, table.get? n = some v ∧ table.eval d.value.toList = .ok v := by
  obtain ⟨i, hi, rfl⟩ := List.mem_iff_getElem.mp m
  obtain ⟨e, he, hname, v, hv, heval⟩ := h.evaluates i hi
  have same := mem_effective_iff.mp he
  rw [hname, hd] at same
  cases same
  exact ⟨v, hv, eval_eq_ok_of_extends (Names.only_extends _ _) heval⟩

/-- What was found for the definitions is in every stuck table. -/
theorem Found.extends_stuck (h : Found (effective definitions) table)
    (stuck : Stuck definitions table') : Names.Extends table.get? table'.get? := by
  induction h with
  | empty =>
    intro n v hv
    rw [get?_empty] at hv
    cases hv
  | @add table d v _ hd _ hv ih =>
    have counts := mem_effective_iff.mp hd
    have heval := eval_eq_ok_of_extends ih hv
    have member : d.name ∈ table'.order := by
      by_contra fresh
      obtain ⟨missing, lacks⟩ := stuck.blocked d.name d counts fresh
      rw [Table.eval, heval] at lacks
      cases lacks
    obtain ⟨w, hw, hw'⟩ := stuck.found.eval_eq_ok counts member
    rw [Table.eval, heval] at hw'
    cases hw'
    intro n u hu
    rw [get?_add] at hu
    split at hu
    · next eq =>
      cases hu
      exact eq ▸ hw
    · exact ih n u hu

/-- Stuck tables hold the same values. -/
theorem Stuck.values_eq (h : Stuck definitions table) (h' : Stuck definitions table') :
    table.values = table'.values :=
  Std.ExtTreeMap.ext_getElem? fun n => Option.ext fun v =>
    ⟨h.found.extends_stuck h' n v, h'.found.extends_stuck h n v⟩

theorem Stuck.eval_eq (h : Stuck definitions table) (h' : Stuck definitions table')
    (s : List Char) : table.eval s = table'.eval s := by
  have same : table.get? = table'.get? := funext fun n => by rw [get?, get?, h.values_eq h']
  rw [Table.eval, Table.eval, same]

/-- Where definitions wait and cannot be evaluated, the table is stuck. -/
theorem Awaits.stuck (h : Awaits (effective definitions) table ws)
    (blocked : ∀ d ∈ ws, ∃ n, table.eval d.value.toList = .error (.unresolved n)) :
    Stuck definitions table where
  found := h.found
  blocked := by
    intro n d hd fresh
    obtain rfl := (name_of_latest? hd).2
    exact blocked d ((h.mem_iff d).mpr ⟨mem_effective_iff.mpr hd, fresh⟩)

/-- While definitions wait that cannot be evaluated, no number of passes resolves them. -/
theorem Awaits.unresolvable (h : Awaits (effective definitions) table ws) (ne : ws ≠ [])
    (blocked : ∀ d ∈ ws, ∃ n, table.eval d.value.toList = .error (.unresolved n)) :
    Unresolvable definitions := by
  intro limit
  cases resolved : (resolve definitions limit).run.value with
  | error failure => exact ⟨failure, rfl⟩
  | ok table' =>
    obtain ⟨d, hd, v, hv⟩ := h.exists_ready (evaluationOrder_resolve resolved) ne
    obtain ⟨n, hn⟩ := blocked d hd
    rw [hv] at hn
    cases hn

/-! ## The diagnosis -/

/-- A run fails at a value that is at fault, for want of passes, or because it is stalled: the
definitions wait, and none of them can be evaluated. -/
theorem Awaits.run_eq_error (ha : Awaits all table ds)
    (h : (run limit remaining ds table).run.value = .error failure) :
    (∃ value fault, failure.cause = .unreadable value fault) ∨ failure.cause = .passLimit limit ∨
      ∃ t ws, Awaits all t ws ∧ ws ≠ [] ∧
        (∀ d ∈ ws, ∃ n, t.eval d.value.toList = .error (.unresolved n)) ∧
        failure = stalled t ws := by
  induction remaining generalizing ds table with
  | zero =>
    cases ds with
    | nil => cases h
    | cons d ds =>
      cases h
      exact .inr (.inl rfl)
  | succ remaining ih =>
    cases ds with
    | nil => rw [value_run_nil] at h; cases h
    | cons d ds =>
      rw [value_run_succ] at h
      cases hp : (pass (limit - remaining) (d :: ds) table).run.value with
      | error f =>
        rw [hp] at h
        cases h
        obtain ⟨-, e, -, -, -, fault, -, -, -, rfl⟩ := pass_eq_error_iff.mp hp
        exact .inl ⟨e.value, fault, rfl⟩
      | ok out =>
        rw [hp] at h
        change (if out.2.length = (d :: ds).length then _ else _) = _ at h
        have hp := pass_eq_ok_iff.mp hp
        split at h
        · next len =>
          cases h
          obtain ⟨same, waiting, blocked⟩ := hp.eq_of_length_eq len
          rw [same, waiting]
          exact .inr (.inr ⟨table, d :: ds, ha, List.cons_ne_nil d ds, blocked, rfl⟩)
        · exact ih (hp.awaits ha) h

/-- An undefined name is told of a definition that waits and stops at the name, which none that
waits has. -/
theorem undefinedName_of_stalled {missing : String}
    (h : (stalled table ws).cause = .undefinedName missing) :
    missing ∉ ws.map (·.name) ∧ ∃ d ∈ ws, (stalled table ws).name = d.name ∧
      table.eval d.value.toList = .error (.unresolved missing) := by
  obtain ⟨d, hd, n, lacks, other, eq⟩ | ⟨-, eq⟩ := stalled_cases table ws
  · rw [eq] at h ⊢
    cases h
    exact ⟨other, d, hd, rfl, lacks⟩
  · rw [eq] at h
    cases h

/-- A cycle is told of the definitions that wait, where each that stops at a name stops at one of
theirs. -/
theorem circular_of_stalled {names : List String}
    (h : (stalled table ws).cause = .circular names) :
    names = ws.map (·.name) ∧ ∀ d ∈ ws, ∀ missing,
      table.eval d.value.toList = .error (.unresolved missing) → missing ∈ names := by
  obtain ⟨d, hd, n, lacks, other, eq⟩ | ⟨among, eq⟩ := stalled_cases table ws
  · rw [eq] at h
    cases h
  · rw [eq] at h
    cases h
    exact ⟨rfl, among⟩

/-- A name that is lacked is defined only by a definition that waits. -/
theorem Awaits.mem_names (h : Awaits (effective definitions) table ws) {n : String}
    (lacks : table.get? n = none) {e : Definition} (he : e ∈ definitions) (hname : e.name = n) :
    n ∈ ws.map (·.name) := by
  obtain ⟨d, hd⟩ := exists_latest?_iff.mpr ⟨e, he, hname⟩
  obtain rfl := (name_of_latest? hd).2
  have fresh : d.name ∉ table.order := by
    rw [← h.found.isSome_get?_iff, lacks]
    exact Bool.false_ne_true
  exact List.mem_map_of_mem ((h.mem_iff d).mpr ⟨mem_effective_iff.mpr hd, fresh⟩)

/-- The definitions that wait are the last ones of their names. -/
theorem Awaits.latest? (h : Awaits (effective definitions) table ws) {d : Definition}
    (hd : d ∈ ws) : latest? definitions d.name = some d :=
  mem_effective_iff.mp ((h.mem_iff d).mp hd).1

/-- A definition that waits and stops at a name refers to it. -/
theorem Awaits.refers (h : Awaits (effective definitions) table ws) {d : Definition} (hd : d ∈ ws)
    {n : String} (lacks : table.eval d.value.toList = .error (.unresolved n)) :
    Refers definitions d.name n := by
  obtain ⟨tokens, hl, member, -⟩ := eval_eq_unresolved lacks
  exact ⟨d, tokens, h.latest? hd, hl, member⟩

end Table

/-- **What is told of a stall is true.** Take the macros that resolution has found: a table with
which no further macro can be evaluated, and of these there is one. Where a macro is told to refer
to an undefined name, its last definition stops at that name, and no definition has the name. Where
a cycle is told between macros, the last definition of each stops at one of them, and some of them
refer to each other in a circle. In both cases no number of passes resolves the definitions. -/
theorem stall_diagnosed {definitions : List Definition} {limit : Nat} {failure : Failure}
    (h : (Table.resolve definitions limit).run.value = .error failure) :
    (∀ missing, failure.cause = .undefinedName missing →
      (∃ table, Table.Stuck definitions table) ∧
      (∀ table, Table.Stuck definitions table → ∃ d, latest? definitions failure.name = some d ∧
        table.eval d.value.toList = .error (.unresolved missing)) ∧
      (∀ d ∈ definitions, d.name ≠ missing) ∧ Unresolvable definitions) ∧
    ∀ names, failure.cause = .circular names →
      (∃ table, Table.Stuck definitions table) ∧
      (∀ table, Table.Stuck definitions table → ∀ n ∈ names, ∃ d, latest? definitions n = some d ∧
        ∃ m ∈ names, table.eval d.value.toList = .error (.unresolved m)) ∧
      (∃ n ∈ names, Relation.TransGen (fun a b => b ∈ names ∧ Refers definitions a b) n n) ∧
      Unresolvable definitions := by
  have start := Table.awaits_effective definitions
  obtain ⟨value, fault, unreadable⟩ | limited | ⟨t, ws, awaits, ne, blocked, rfl⟩ :=
    start.run_eq_error h
  · rw [unreadable]
    exact ⟨fun _ h => (by cases h), fun _ h => (by cases h)⟩
  · rw [limited]
    exact ⟨fun _ h => (by cases h), fun _ h => (by cases h)⟩
  have stuck := awaits.stuck blocked
  have unresolvable := awaits.unresolvable ne blocked
  constructor
  · intro missing cause
    obtain ⟨other, d, hd, name, lacks⟩ := Table.undefinedName_of_stalled cause
    obtain ⟨-, -, -, valueless⟩ := eval_eq_unresolved lacks
    refine ⟨⟨t, stuck⟩, fun table ht => ⟨d, ?_, ?_⟩, fun e he hname => ?_, unresolvable⟩
    · rw [name]
      exact awaits.latest? hd
    · rw [ht.eval_eq stuck, lacks]
    · exact other (awaits.mem_names valueless he hname)
  · intro names cause
    obtain ⟨rfl, among⟩ := Table.circular_of_stalled cause
    have stops : ∀ n ∈ ws.map (·.name), ∃ d ∈ ws, d.name = n ∧ ∃ m ∈ ws.map (·.name),
        t.eval d.value.toList = .error (.unresolved m) := by
      intro n hn
      obtain ⟨d, hd, rfl⟩ := List.mem_map.mp hn
      obtain ⟨m, lacks⟩ := blocked d hd
      exact ⟨d, hd, rfl, m, among d hd m lacks, lacks⟩
    refine ⟨⟨t, stuck⟩, fun table ht n hn => ?_, ?_, unresolvable⟩
    · obtain ⟨d, hd, rfl, m, hm, lacks⟩ := stops n hn
      exact ⟨d, awaits.latest? hd, m, hm, by rw [ht.eval_eq stuck, lacks]⟩
    · refine exists_cycle (by simpa using ne) fun n hn => ?_
      obtain ⟨d, hd, rfl, m, hm, lacks⟩ := stops n hn
      exact ⟨m, hm, awaits.refers hd lacks⟩

/-- Two macros that use each other, and a third with a value, which one of them uses too. -/
def circle : List Definition := [⟨"A", "B + 1", 1⟩, ⟨"B", "C * A", 2⟩, ⟨"C", "5", 3⟩]

/-- A macro that uses an undefined name, behind one that waits for it. -/
def dangling : List Definition := [⟨"A", "B", 1⟩, ⟨"B", "C + x", 2⟩, ⟨"C", "5", 3⟩]

theorem stall_diagnosed_circleAndDangling :
    ((Table.resolve circle 2).run.value = .error ⟨"A", .circular ["A", "B"]⟩ ∧
      (∃ n ∈ ["A", "B"],
        Relation.TransGen (fun a b => b ∈ ["A", "B"] ∧ Refers circle a b) n n) ∧
      Unresolvable circle) ∧
    (Table.resolve dangling 2).run.value = .error ⟨"B", .undefinedName "x"⟩ ∧
      (∃ table, Table.Stuck dangling table ∧ table.eval "C + x".toList = .error (.unresolved "x")) ∧
      (∀ d ∈ dangling, d.name ≠ "x") ∧ Unresolvable dangling := by
  have cycle : (Table.resolve circle 2).run.value = .error ⟨"A", .circular ["A", "B"]⟩ := by
    with_unfolding_all rfl
  have stray : (Table.resolve dangling 2).run.value = .error ⟨"B", .undefinedName "x"⟩ := by
    with_unfolding_all rfl
  obtain ⟨-, -, turns, never⟩ := (stall_diagnosed cycle).2 _ rfl
  obtain ⟨⟨table, stuck⟩, stops, none, never'⟩ := (stall_diagnosed stray).1 _ rfl
  obtain ⟨d, hd, lacks⟩ := stops table stuck
  cases hd
  exact ⟨⟨cycle, turns, never⟩, stray, ⟨table, stuck, lacks⟩, none, never'⟩

end ShaderInterface.Macro
