import Mathlib.Data.List.Nodup
import ShaderInterface.Macro.Table
import ShaderInterface.Proofs.Macro.Evaluation
import ShaderInterface.Proofs.Macro.Extension

/-!
# Resolution gives an evaluation order

A resolved table lists every defined name once, in an order in which each macro can be evaluated
with the names before it (`EvaluationOrder`), and evaluating every macro against the whole table
gives the table back (`resolve_sound`).

A pass does one of two things with each waiting definition (`Table.Pass`): it adds the value to
the table, or it keeps the definition waiting. So every table of a run comes from the empty one by
evaluating definitions one at a time (`Table.Found`), and the invariant of a run says which
definitions still wait (`Table.Awaits`).
-/

namespace ShaderInterface.Macro

/-! ## The definitions that count -/

/-- The last definition of a name. -/
def latest? (definitions : List Definition) (name : String) : Option Definition :=
  (definitions.filter fun d => d.name = name).getLast?

theorem latest?_append_singleton (ds : List Definition) (d : Definition) (name : String) :
    latest? (ds ++ [d]) name = if d.name = name then some d else latest? ds name := by
  by_cases h : d.name = name <;> simp [latest?, h]

theorem name_of_latest? {ds : List Definition} {d : Definition} {name : String}
    (h : latest? ds name = some d) : d ∈ ds ∧ d.name = name := by
  have := List.mem_of_getLast? h
  simpa using this

theorem exists_latest?_iff {ds : List Definition} {name : String} :
    (∃ d, latest? ds name = some d) ↔ ∃ d ∈ ds, d.name = name := by
  rw [← Option.isSome_iff_exists, latest?, List.getLast?_isSome]
  simp [List.filter_eq_nil_iff]

/-- The definition of each name is the last, where the names are distinct. -/
theorem latest?_eq_some_iff_of_nodup {ds : List Definition} (nodup : (ds.map (·.name)).Nodup)
    {d : Definition} {name : String} : latest? ds name = some d ↔ d ∈ ds ∧ d.name = name := by
  refine ⟨name_of_latest?, fun ⟨hd, hname⟩ => ?_⟩
  obtain ⟨e, he⟩ := exists_latest?_iff.mpr ⟨d, hd, hname⟩
  obtain ⟨hmem, heq⟩ := name_of_latest? he
  rw [he, List.inj_on_of_nodup_map nodup hmem hd (heq.trans hname.symm)]

theorem mem_names_replaceOrAppend {d : Definition} {ds : List Definition} {name : String} :
    name ∈ (replaceOrAppend d ds).map (·.name) ↔ name = d.name ∨ name ∈ ds.map (·.name) := by
  induction ds with
  | nil => simp [replaceOrAppend]
  | cons e ds ih =>
    by_cases h : e.name = d.name
    · simp [replaceOrAppend, h]
    · rw [replaceOrAppend, if_neg h, List.map_cons, List.mem_cons, ih, List.map_cons,
        List.mem_cons]
      exact or_left_comm

theorem nodup_replaceOrAppend {d : Definition} {ds : List Definition}
    (nodup : (ds.map (·.name)).Nodup) : ((replaceOrAppend d ds).map (·.name)).Nodup := by
  induction ds with
  | nil => simp [replaceOrAppend]
  | cons e ds ih =>
    obtain ⟨fresh, rest⟩ := List.nodup_cons.mp nodup
    by_cases h : e.name = d.name
    · rw [replaceOrAppend, if_pos h]
      refine List.nodup_cons.mpr ⟨fun m => fresh ?_, rest⟩
      change d.name ∈ ds.map (·.name) at m
      rwa [← h] at m
    · rw [replaceOrAppend, if_neg h]
      refine List.nodup_cons.mpr ⟨fun m => ?_, ih rest⟩
      exact (mem_names_replaceOrAppend.mp m).elim h fresh

/-- A replaced definition is gone, and the others stay. -/
theorem mem_replaceOrAppend {d e : Definition} {ds : List Definition}
    (nodup : (ds.map (·.name)).Nodup) :
    e ∈ replaceOrAppend d ds ↔ if d.name = e.name then e = d else e ∈ ds := by
  induction ds with
  | nil =>
    rw [replaceOrAppend, List.mem_singleton]
    split
    · rfl
    · next h => exact ⟨fun eq => absurd (congrArg _ eq.symm) h, fun m => by cases m⟩
  | cons c ds ih =>
    obtain ⟨fresh, rest⟩ := List.nodup_cons.mp nodup
    by_cases h : c.name = d.name
    · rw [replaceOrAppend, if_pos h, List.mem_cons]
      have other : d.name = e.name → e ∉ ds := fun eq m =>
        fresh (List.mem_map.mpr ⟨e, m, (h.trans eq).symm⟩)
      split
      · next eq => exact ⟨fun m => m.resolve_right (other eq), .inl⟩
      · next ne =>
        refine ⟨fun m => ?_, fun m => ?_⟩
        · exact List.mem_cons_of_mem _ (m.resolve_left fun eq => ne (congrArg _ eq.symm))
        · exact .inr ((List.mem_cons.mp m).resolve_left fun eq => ne (eq ▸ h.symm))
    · rw [replaceOrAppend, if_neg h, List.mem_cons, ih rest]
      split
      · next eq => exact ⟨fun m => m.resolve_left fun he => h (he ▸ eq.symm), .inr⟩
      · exact List.mem_cons.symm

theorem effective_append_singleton (ds : List Definition) (d : Definition) :
    effective (ds ++ [d]) = replaceOrAppend d (effective ds) := by
  rw [effective, List.foldl_append]
  rfl

theorem nodup_effective (ds : List Definition) : ((effective ds).map (·.name)).Nodup := by
  induction ds using List.reverseRecOn with
  | nil => exact List.nodup_nil
  | append_singleton ds d ih =>
    rw [effective_append_singleton]
    exact nodup_replaceOrAppend ih

/-- The definitions that count are the last ones of their names. -/
theorem mem_effective_iff {ds : List Definition} {d : Definition} :
    d ∈ effective ds ↔ latest? ds d.name = some d := by
  induction ds using List.reverseRecOn generalizing d with
  | nil => simp [effective, latest?]
  | append_singleton ds e ih =>
    rw [effective_append_singleton, mem_replaceOrAppend (nodup_effective ds),
      latest?_append_singleton]
    split
    · rw [Option.some_inj, eq_comm]
    · exact ih

/-- A name counts once it is defined. -/
theorem mem_names_effective_iff {ds : List Definition} {name : String} :
    name ∈ (effective ds).map (·.name) ↔ ∃ d ∈ ds, d.name = name := by
  rw [← exists_latest?_iff, List.mem_map]
  constructor
  · rintro ⟨d, hd, rfl⟩
    exact ⟨d, mem_effective_iff.mp hd⟩
  · rintro ⟨d, hd⟩
    have name := (name_of_latest? hd).2
    exact ⟨d, mem_effective_iff.mpr (name ▸ hd), name⟩

/-! ## Evaluation orders -/

/-- The assignment to the given names only. -/
def Names.only (names : Names) (kept : List String) : Names :=
  fun n => if n ∈ kept then names n else none

/-- An order of the defined names in which every macro can be evaluated with the names before it:
the order lists every name once, and the last definition of each name evaluates to the value of
the name when only the names before it have their values. -/
structure EvaluationOrder (definitions : List Definition) (order : List String) (values : Names) :
    Prop where
  nodup : order.Nodup
  mem_iff : ∀ name, name ∈ order ↔ ∃ d ∈ definitions, d.name = name
  evaluates : ∀ i (hi : i < order.length), ∃ d v, latest? definitions order[i] = some d ∧
    values order[i] = some v ∧ eval (values.only (order.take i)) d.value.toList = .ok v

theorem Names.only_extends (names : Names) (kept : List String) :
    (names.only kept).Extends names := by
  intro n v h
  exact (Option.ite_none_right_eq_some.mp h).2

/-- In an evaluation order every macro evaluates to its value under the whole assignment too. -/
theorem EvaluationOrder.eval_eq_ok {definitions : List Definition} {order : List String}
    {values : Names} (h : EvaluationOrder definitions order values) {d : Definition}
    {name : String} (hd : latest? definitions name = some d) :
    ∃ v, values name = some v ∧ eval values d.value.toList = .ok v := by
  obtain ⟨hmem, hname⟩ := name_of_latest? hd
  have member : name ∈ order := (h.mem_iff name).mpr ⟨d, hmem, hname⟩
  obtain ⟨i, hi, rfl⟩ := List.mem_iff_getElem.mp member
  obtain ⟨e, v, he, hv, heval⟩ := h.evaluates i hi
  rw [hd] at he
  cases he
  exact ⟨v, hv, eval_eq_ok_of_extends (values.only_extends _) heval⟩

namespace Table

theorem get?_add (table : Table) (name : String) (v : Literal) (n : String) :
    (table.add name v).get? n = if name = n then some v else table.get? n :=
  NameMap.getElem?_insert' table.values name n v

theorem order_add (table : Table) (name : String) (v : Literal) :
    (table.add name v).order = table.order ++ [name] := rfl

theorem get?_empty (n : String) : ({} : Table).get? n = none := by simp [get?]

/-! ## What a pass does -/

/-- `Pass ds t t' ws`: going once through the definitions `ds`, each is evaluated under the table
at hand, and either its value is added or it waits on. -/
inductive Pass : List Definition → Table → Table → List Definition → Prop where
  | nil (table : Table) : Pass [] table table []
  | found {d : Definition} {ds ws : List Definition} {table table' : Table} {v : Literal}
      (h : table.eval d.value.toList = .ok v) (rest : Pass ds (table.add d.name v) table' ws) :
      Pass (d :: ds) table table' ws
  | waits {d : Definition} {ds ws : List Definition} {table table' : Table} {name : String}
      (h : table.eval d.value.toList = .error (.unresolved name)) (rest : Pass ds table table' ws) :
      Pass (d :: ds) table table' (d :: ws)

variable {d : Definition} {ds ws : List Definition} {table table' : Table} {number : Nat}

theorem value_pass_found {v : Literal} (h : table.eval d.value.toList = .ok v) :
    (pass number (d :: ds) table).run.value = (pass number ds (table.add d.name v)).run.value := by
  rw [pass, h]
  rfl

theorem value_pass_waits {name : String}
    (h : table.eval d.value.toList = .error (.unresolved name)) :
    (pass number (d :: ds) table).run.value =
      (pass number ds table).run.value.map fun out => (out.1, d :: out.2) := by
  rw [pass, h]
  show (pass number ds table >>= fun out => pure (out.1, d :: out.2)).run.value = _
  rw [value_run_bind]
  cases (pass number ds table).run.value <;> rfl

theorem value_pass_invalid {fault : Fault}
    (h : table.eval d.value.toList = .error (.invalid fault)) :
    (pass number (d :: ds) table).run.value = .error ⟨d.name, .unreadable d.value fault⟩ := by
  rw [pass, h]
  rfl

theorem pass_eq_ok_iff :
    (pass number ds table).run.value = .ok (table', ws) ↔ Pass ds table table' ws := by
  constructor
  · intro h
    induction ds generalizing table ws with
    | nil =>
      cases h
      exact .nil _
    | cons d ds ih =>
      cases hd : table.eval d.value.toList with
      | ok v => exact .found hd (ih (value_pass_found hd ▸ h))
      | error e =>
        cases e with
        | invalid fault =>
          rw [value_pass_invalid hd] at h
          cases h
        | unresolved name =>
          rw [value_pass_waits hd] at h
          cases hp : (pass number ds table).run.value with
          | error e => rw [hp] at h; cases h
          | ok out =>
            rw [hp] at h
            cases h
            exact .waits hd (ih hp)
  · intro h
    induction h with
    | nil => rfl
    | found h _ ih => rw [value_pass_found h, ih]
    | waits h _ ih => rw [value_pass_waits h, ih]; rfl

/-! ## The invariant of a run -/

/-- The table comes from the empty one by evaluating definitions one at a time. -/
inductive Found (ds : List Definition) : Table → Prop where
  | empty : Found ds {}
  | add {table : Table} {d : Definition} {v : Literal} (h : Found ds table) (hd : d ∈ ds)
      (fresh : d.name ∉ table.order) (hv : table.eval d.value.toList = .ok v) :
      Found ds (table.add d.name v)

/-- The definitions `ws` of `ds` wait for the table: they are those whose names have no value. -/
structure Awaits (ds : List Definition) (table : Table) (ws : List Definition) : Prop where
  found : Found ds table
  nodup : (ws.map (·.name)).Nodup
  mem_iff : ∀ d, d ∈ ws ↔ d ∈ ds ∧ d.name ∉ table.order

/-- What a pass leaves of a table and of the definitions that it goes through. -/
structure Pass.Result (all ds : List Definition) (table table' : Table) (ws : List Definition) :
    Prop where
  found : Found all table'
  sublist : ws.Sublist ds
  order : ∀ name, name ∈ table'.order ↔
    name ∈ table.order ∨ ∃ d ∈ ds, d.name = name ∧ d ∉ ws

/-- A pass adds the definitions that do not wait on. -/
theorem Pass.result {all : List Definition} (h : Pass ds table table' ws)
    (hf : Found all table) (nodup : (ds.map (·.name)).Nodup)
    (hds : ∀ d ∈ ds, d ∈ all ∧ d.name ∉ table.order) : Result all ds table table' ws := by
  induction h with
  | nil => exact ⟨hf, List.Sublist.refl _, by simp⟩
  | @found d ds ws table table' v hv rest ih =>
    obtain ⟨fresh, nodup⟩ := List.nodup_cons.mp nodup
    obtain ⟨hd, hnew⟩ := hds d List.mem_cons_self
    have others : ∀ e ∈ ds, e.name ≠ d.name := fun e he eq =>
      fresh (List.mem_map.mpr ⟨e, he, eq⟩)
    have r := ih (hf.add hd hnew hv) nodup fun e he => by
      refine ⟨(hds e (List.mem_cons_of_mem _ he)).1, ?_⟩
      rw [order_add, List.mem_append, List.mem_singleton]
      exact fun m => m.elim (hds e (List.mem_cons_of_mem _ he)).2 (others e he)
    refine ⟨r.found, r.sublist.cons _, fun name => ?_⟩
    have waits : d ∉ ws := fun m => others d (r.sublist.subset m) rfl
    rw [r.order, order_add, List.mem_append, List.mem_singleton, List.exists_mem_cons_iff, or_assoc,
      @eq_comm _ name]
    simp only [waits, not_false_eq_true, and_true]
  | @waits d ds ws table table' name hv rest ih =>
    obtain ⟨fresh, nodup⟩ := List.nodup_cons.mp nodup
    have r := ih hf nodup fun e he => hds e (List.mem_cons_of_mem _ he)
    refine ⟨r.found, r.sublist.cons_cons _, fun name => ?_⟩
    have others : ∀ e ∈ ds, e ≠ d := fun e he eq => fresh (List.mem_map.mpr ⟨e, he, eq ▸ rfl⟩)
    rw [r.order, List.exists_mem_cons_iff]
    simp only [List.mem_cons, true_or, not_true_eq_false, and_false, false_or, not_or]
    refine or_congr_right ⟨?_, ?_⟩
    · rintro ⟨e, he, hname, hw⟩
      exact ⟨e, he, hname, others e he, hw⟩
    · rintro ⟨e, he, hname, -, hw⟩
      exact ⟨e, he, hname, hw⟩

variable {all : List Definition}

/-- A pass keeps the invariant. -/
theorem Pass.awaits (h : Pass ds table table' ws) (ha : Awaits all table ds) :
    Awaits all table' ws := by
  have r := h.result ha.found ha.nodup fun d hd => (ha.mem_iff d).mp hd
  refine ⟨r.found, (r.sublist.map _).nodup ha.nodup, fun d => ⟨fun hd => ?_, fun ⟨hd, fresh⟩ => ?_⟩⟩
  · have hds := r.sublist.subset hd
    obtain ⟨hall, fresh⟩ := (ha.mem_iff d).mp hds
    refine ⟨hall, fun m => ?_⟩
    rcases (r.order d.name).mp m with old | ⟨e, he, hname, hw⟩
    · exact fresh old
    · exact hw (List.inj_on_of_nodup_map ha.nodup he hds hname ▸ hd)
  · by_contra hw
    have hds := (ha.mem_iff d).mpr ⟨hd, fun m => fresh ((r.order d.name).mpr (.inl m))⟩
    exact fresh ((r.order d.name).mpr (.inr ⟨d, hds, rfl, hw⟩))

theorem Pass.length_le (h : Pass ds table table' ws) : ws.length ≤ ds.length := by
  induction h with
  | nil => exact Nat.le_refl _
  | found _ _ ih => exact Nat.le_succ_of_le ih
  | waits _ _ ih => exact Nat.succ_le_succ ih

/-- A pass after which all definitions still wait has left the table as it was. -/
theorem Pass.eq_of_length_eq (h : Pass ds table table' ws) (len : ws.length = ds.length) :
    table' = table ∧ ws = ds ∧
      ∀ d ∈ ds, ∃ name, table.eval d.value.toList = .error (.unresolved name) := by
  induction h with
  | nil => simp
  | found _ rest =>
    have := rest.length_le
    rw [List.length_cons] at len
    omega
  | waits hd _ ih =>
    obtain ⟨rfl, rfl, hds⟩ := ih (Nat.succ.inj len)
    refine ⟨rfl, rfl, fun e he => ?_⟩
    rcases List.mem_cons.mp he with rfl | he
    · exact ⟨_, hd⟩
    · exact hds e he

variable {limit remaining : Nat}

theorem value_run_nil (limit remaining : Nat) (table : Table) :
    (run limit remaining [] table).run.value = .ok table := by
  cases remaining <;> rfl

theorem value_run_succ (limit remaining : Nat) (d : Definition) (ds : List Definition)
    (table : Table) :
    (run limit (remaining + 1) (d :: ds) table).run.value =
      ((pass (limit - remaining) (d :: ds) table).run.value >>= fun out =>
        if out.2.length = (d :: ds).length then .error (stalled out.1 out.2)
        else (run limit remaining out.2 out.1).run.value) := by
  rw [run, value_run_bind]
  congr 1
  funext out
  dsimp only
  split
  · rfl
  · rfl

/-- What a pass of a successful run does: it finds a value, and the run goes on. -/
theorem run_succ_eq_ok_iff {d : Definition} :
    (run limit (remaining + 1) (d :: ds) table).run.value = .ok table' ↔
      ∃ t ws, Pass (d :: ds) table t ws ∧ ws.length ≠ (d :: ds).length ∧
        (run limit remaining ws t).run.value = .ok table' := by
  rw [value_run_succ]
  constructor
  · intro h
    cases hp : (pass (limit - remaining) (d :: ds) table).run.value with
    | error e => rw [hp] at h; cases h
    | ok out =>
      rw [hp] at h
      change (if out.2.length = (d :: ds).length then _ else _) = _ at h
      split at h
      · cases h
      · next ne => exact ⟨out.1, out.2, pass_eq_ok_iff.mp hp, ne, h⟩
  · rintro ⟨t, ws, hp, ne, hr⟩
    rw [pass_eq_ok_iff.mpr hp]
    exact (if_neg ne).trans hr

/-- A successful run leaves nothing waiting. -/
theorem awaits_nil_of_run (h : (run limit remaining ds table).run.value = .ok table')
    (ha : Awaits all table ds) : Awaits all table' [] := by
  induction remaining generalizing ds table with
  | zero =>
    cases ds with
    | nil => cases h; exact ha
    | cons d ds => cases h
  | succ remaining ih =>
    cases ds with
    | nil =>
      rw [value_run_nil] at h
      cases h
      exact ha
    | cons d ds =>
      obtain ⟨t, ws, hp, -, hr⟩ := run_succ_eq_ok_iff.mp h
      exact ih hr (hp.awaits ha)

theorem awaits_effective (definitions : List Definition) :
    Awaits (effective definitions) {} (effective definitions) :=
  ⟨.empty, nodup_effective definitions, by simp⟩

/-! ## Tables that were found -/

theorem Found.nodup (h : Found all table) : table.order.Nodup := by
  induction h with
  | empty => exact List.nodup_nil
  | add _ _ fresh _ ih =>
    rw [order_add]
    refine List.nodup_append.mpr ⟨ih, List.nodup_singleton _, fun n hn m hm => ?_⟩
    obtain rfl := List.mem_singleton.mp hm
    rintro rfl
    exact fresh hn

theorem Found.isSome_get?_iff (h : Found all table) (name : String) :
    (table.get? name).isSome ↔ name ∈ table.order := by
  induction h with
  | empty => simp [get?_empty]
  | @add table d v _ _ _ _ ih =>
    rw [get?_add, order_add, List.mem_append, List.mem_singleton]
    split
    · next eq => simp [eq]
    · next ne => rw [ih]; exact ⟨.inl, fun m => m.resolve_right (Ne.symm ne)⟩

theorem Found.mem_names (h : Found all table) {name : String} (m : name ∈ table.order) :
    name ∈ all.map (·.name) := by
  induction h with
  | empty => cases m
  | add _ hd _ _ ih =>
    rw [order_add, List.mem_append, List.mem_singleton] at m
    rcases m with old | rfl
    · exact ih old
    · exact List.mem_map_of_mem hd

/-- A value that is added changes no assignment to names that had a place before. -/
theorem only_take_add (name : String) (v : Literal) (fresh : name ∉ table.order) {i : Nat}
    (hi : i ≤ table.order.length) :
    Names.only (table.add name v).get? ((table.add name v).order.take i) =
      Names.only table.get? (table.order.take i) := by
  funext n
  rw [order_add, List.take_append_of_le_length hi, Names.only, Names.only]
  split
  · next m =>
    have ne : name ≠ n := by
      rintro rfl
      exact fresh (List.mem_of_mem_take m)
    rw [get?_add, if_neg ne]
  · rfl

/-- With all its names the table is the assignment that it makes. -/
theorem Found.only_order (h : Found all table) :
    Names.only table.get? table.order = table.get? := by
  funext n
  rw [Names.only]
  split
  · rfl
  · next m =>
    rw [← h.isSome_get?_iff, Bool.not_eq_true, Option.isSome_eq_false_iff,
      Option.isNone_iff_eq_none] at m
    exact m.symm

/-- Every macro was evaluated with the names before it. -/
theorem Found.evaluates (h : Found all table) (i : Nat) (hi : i < table.order.length) :
    ∃ d ∈ all, d.name = table.order[i] ∧ ∃ v, table.get? table.order[i] = some v ∧
      Macro.eval (Names.only table.get? (table.order.take i)) d.value.toList = .ok v := by
  induction h with
  | empty => cases hi
  | @add table d v h hd fresh hv ih =>
    rw [only_take_add d.name v fresh (by simpa [order_add, Nat.lt_succ_iff] using hi)]
    simp only [order_add] at hi ⊢
    by_cases last : i < table.order.length
    · obtain ⟨e, he, hname, w, hw, heval⟩ := ih last
      refine ⟨e, he, ?_, w, ?_, heval⟩
      · rw [List.getElem_append_left last, hname]
      · rw [List.getElem_append_left last, get?_add, if_neg, hw]
        exact fun eq => fresh (eq ▸ List.getElem_mem last)
    · obtain rfl : i = table.order.length := by
        rw [List.length_append, List.length_singleton] at hi
        omega
      rw [List.getElem_concat_length rfl, List.take_length, h.only_order]
      exact ⟨d, hd, rfl, v, by rw [get?_add, if_pos rfl], hv⟩

/-- When no definition waits, the order of the table is an evaluation order. -/
theorem evaluationOrder_of_awaits_nil {definitions : List Definition}
    (h : Awaits (effective definitions) table []) :
    EvaluationOrder definitions table.order table.get? where
  nodup := h.found.nodup
  mem_iff := by
    intro name
    rw [← mem_names_effective_iff]
    refine ⟨h.found.mem_names, fun m => ?_⟩
    obtain ⟨d, hd, rfl⟩ := List.mem_map.mp m
    by_contra fresh
    cases (h.mem_iff d).mpr ⟨hd, fresh⟩
  evaluates := by
    intro i hi
    obtain ⟨d, hd, hname, v, hv, heval⟩ := h.found.evaluates i hi
    exact ⟨d, v, hname ▸ mem_effective_iff.mp hd, hv, heval⟩

/-- A property that evaluation passes from the values of a table to the next is one of all its
values. -/
theorem Found.keeps {P : Literal → Prop} (step : ∀ {table : Table} {d : Definition} {v : Literal},
      Found all table → (∀ n w, table.get? n = some w → P w) → d ∈ all →
        table.eval d.value.toList = .ok v → P v)
    (h : Found all table) : ∀ n v, table.get? n = some v → P v := by
  induction h with
  | empty =>
    intro n v hv
    rw [get?_empty] at hv
    cases hv
  | add found hd _ hw ih =>
    intro n v hv
    rw [get?_add] at hv
    split at hv
    · cases hv
      exact step found ih hd hw
    · exact ih n v hv

/-- Tables hold integers of 64 bits only. -/
theorem Found.fit (h : Found all table) : Names.Fit table.get? :=
  h.keeps fun _ ih _ => eval_fits ih

theorem evaluationOrder_resolve {definitions : List Definition}
    (h : (resolve definitions limit).run.value = .ok table) :
    EvaluationOrder definitions table.order table.get? :=
  evaluationOrder_of_awaits_nil (awaits_nil_of_run h (awaits_effective definitions))

/-- The macros of a text are what its definitions resolve to. -/
theorem outcome_ofText_eq_ok_iff {s : List Char} :
    (ofText s limit).outcome = .ok table ↔
      (resolve (definitions s) limit).run.value = .ok table := by
  rw [ofText, Diagnosed.outcome, ofDefinitions, ExceptT.run_mk, Logged.value_bind]
  cases (resolve (definitions s) limit).run.value with
  | ok t =>
    change Except.ok t = Except.ok table ↔ Except.ok t = Except.ok table
    rw [Except.ok.injEq, Except.ok.injEq]
  | error failure => exact ⟨nofun, nofun⟩

end Table

/-- **A resolved table is an evaluation order of the definitions.** The order lists every defined
name once, and evaluates each last definition with the names before it; the table has a value for
exactly the defined names; and evaluating every last definition against the whole table gives the
table back. -/
theorem resolve_sound {definitions : List Definition} {limit : Nat} {table : Table}
    (h : (Table.resolve definitions limit).run.value = .ok table) :
    EvaluationOrder definitions table.order table.get? ∧
      (∀ name, name ∈ table.values ↔ ∃ d ∈ definitions, d.name = name) ∧
      ∀ name d, latest? definitions name = some d →
        ∃ v, table.get? name = some v ∧ table.eval d.value.toList = .ok v := by
  have order := Table.evaluationOrder_resolve h
  have awaits := Table.awaits_nil_of_run h (Table.awaits_effective definitions)
  refine ⟨order, fun name => ?_, fun name d hd => order.eval_eq_ok hd⟩
  rw [← order.mem_iff, ← awaits.found.isSome_get?_iff, Table.get?]
  exact Std.ExtTreeMap.mem_iff_isSome_getElem?

/-- Definitions that use later ones, one of which is made twice. -/
def outOfOrder : List Definition :=
  [⟨"A", "B + 1", 1⟩, ⟨"C", "x", 2⟩, ⟨"B", "C * 2", 3⟩, ⟨"C", "5", 4⟩]

theorem resolve_sound_outOfOrder :
    ∃ table, (Table.resolve outOfOrder 2).run.value = .ok table ∧ table.order = ["C", "B", "A"] ∧
      EvaluationOrder outOfOrder table.order table.get? ∧
      (∀ name, name ∈ table.values ↔ ∃ d ∈ outOfOrder, d.name = name) ∧
      ∀ name d, latest? outOfOrder name = some d →
        ∃ v, table.get? name = some v ∧ table.eval d.value.toList = .ok v := by
  have h : (Table.resolve outOfOrder 2).run.value =
      .ok (((({} : Table).add "C" (.int 5)).add "B" (.int 10)).add "A" (.int 11)) := by
    with_unfolding_all rfl
  exact ⟨_, h, rfl, resolve_sound h⟩

end ShaderInterface.Macro
