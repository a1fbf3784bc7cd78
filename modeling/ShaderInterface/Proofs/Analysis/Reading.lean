import ShaderInterface.Analysis
import ShaderInterface.Proofs.Outcome

/-!
# What declarations say

A uniform declaration, taken on its own, says which entries and which hint its variable has
(`Reads`), and an attribute declaration which attribute it makes (`ReadsAttribute`). The readers
find out what is said and nothing else.
-/

namespace ShaderInterface.Analysis

open Glsl

variable {scope : Scope} {d : Declaration}

/-- The array length of a declaration: zero without a size, else the positive integer of 32 bits
to which the size evaluates. -/
inductive HasLength (macros : Macro.Table) (d : Declaration) : Nat → Prop where
  | single (h : d.size = none) : HasLength macros d 0
  | array {size : String} {n : Nat} (h : d.size = some size)
      (value : macros.eval size.toList = .ok (.int n)) (pos : 0 < n) (lt : n < 2 ^ 32) :
      HasLength macros d n

/-- The reading of a uniform declaration: its name, the entries of its expansion, and the hint in
the text that trails it. -/
structure Reads (scope : Scope) (d : Declaration) (r : UniformReading) : Prop where
  name : r.name = d.name
  entries : ∃ length, HasLength scope.macros d length ∧
    (Struct.expand scope.structs d.type d.name length scope.stage).outcome = .ok r.entries
  hint : Hint.ofTrailing scope.parse d.trailing.toList = .ok r.hint

/-- The attribute that a declaration makes has its name, its base type and its array length. -/
structure ReadsAttribute (scope : Scope) (d : Declaration) (a : Attribute) : Prop where
  name : a.name = d.name
  type : BaseType.ofToken? d.type = some a.type
  count : HasLength scope.macros d a.count
  stages : a.stages = .single scope.stage

theorem positive?_eq_some_iff {v : Macro.Literal} {n : Nat} :
    v.positive? = some n ↔ v = .int n ∧ 0 < n ∧ n < 2 ^ 32 := by
  cases v with
  | int m =>
    rw [Macro.Literal.positive?, Option.filter_eq_some_iff, Macro.Literal.count?,
      Option.ite_none_right_eq_some, Option.some_inj, Macro.Literal.int.injEq, decide_eq_true_iff]
    omega
  | float x => exact ⟨fun h => (by cases h), fun ⟨h, _⟩ => (by cases h)⟩
  | str s => exact ⟨fun h => (by cases h), fun ⟨h, _⟩ => (by cases h)⟩

/-- The array length that is computed is the one that the declaration has. -/
theorem outcome_arrayLength_eq_ok_iff {n : Nat} :
    (arrayLength scope d).outcome = .ok n ↔ HasLength scope.macros d n := by
  unfold arrayLength
  cases hs : d.size with
  | none =>
    refine ⟨fun h => ?_, fun h => ?_⟩
    · cases h
      exact .single hs
    · cases h with
      | single => rfl
      | array h => rw [hs] at h; cases h
  | some size =>
    rw [outcome_ofOption_eq_ok_iff, Option.bind_eq_some_iff]
    constructor
    · rintro ⟨v, hv, hn⟩
      obtain ⟨rfl, pos, lt⟩ := positive?_eq_some_iff.mp hn
      exact .array hs (toOption_eq_some_iff.mp hv) pos lt
    · intro h
      cases h with
      | single h => rw [hs] at h; cases h
      | array h value pos lt =>
        rw [hs] at h
        cases h
        exact ⟨_, toOption_eq_some_iff.mpr value, positive?_eq_some_iff.mpr ⟨rfl, pos, lt⟩⟩

theorem outcome_hint_eq_ok_iff {fields : Option Hint.Fields} :
    (hint scope d).outcome = .ok fields ↔
      Hint.ofTrailing scope.parse d.trailing.toList = .ok fields := by
  unfold hint
  cases Hint.ofTrailing scope.parse d.trailing.toList with
  | ok found => exact ⟨fun h => (by cases h; rfl), fun h => (by cases h; rfl)⟩
  | error flaw => exact ⟨fun h => (by cases h), fun h => (by cases h)⟩

/-- The declaration is passed over: it is of no base type, and structs are not expanded. -/
def Scope.Passes (scope : Scope) (d : Declaration) : Prop :=
  BaseType.ofToken? d.type = none ∧ scope.expandStructs = false

theorem passes_iff :
    scope.Passes d ↔ ((BaseType.ofToken? d.type).isNone && !scope.expandStructs) = true := by
  simp [Scope.Passes]

/-- A declaration that is passed over says nothing. -/
theorem outcome_uniformReading_of_passes (passes : scope.Passes d) :
    (uniformReading scope d).outcome = .ok { name := d.name, entries := [], hint := none } := by
  unfold uniformReading
  rw [if_pos (passes_iff.mp passes)]
  rfl

/-- A uniform declaration that is not passed over is read as what it says. -/
theorem outcome_uniformReading_eq_ok_iff_of_not_passes (kept : ¬ scope.Passes d)
    {r : UniformReading} : (uniformReading scope d).outcome = .ok r ↔ Reads scope d r := by
  unfold uniformReading
  rw [if_neg (passes_iff.not.mp kept)]
  constructor
  · intro h
    obtain ⟨length, hl, h⟩ := value_run_bind_eq_ok_iff.mp h
    obtain ⟨entries, he, h⟩ := value_run_bind_eq_ok_iff.mp h
    obtain ⟨fields, hf, h⟩ := value_run_bind_eq_ok_iff.mp h
    cases h
    exact ⟨rfl, ⟨length, outcome_arrayLength_eq_ok_iff.mp hl, he⟩, outcome_hint_eq_ok_iff.mp hf⟩
  · rintro ⟨hn, ⟨length, hl, he⟩, hf⟩
    refine value_run_bind_eq_ok_iff.mpr ⟨length, outcome_arrayLength_eq_ok_iff.mpr hl, ?_⟩
    refine value_run_bind_eq_ok_iff.mpr ⟨r.entries, he, ?_⟩
    refine value_run_bind_eq_ok_iff.mpr ⟨r.hint, outcome_hint_eq_ok_iff.mpr hf, ?_⟩
    rw [← hn]
    rfl

/-- Where structs are expanded, a uniform declaration is read as what it says. -/
theorem outcome_uniformReading_eq_ok_iff (expands : scope.expandStructs = true)
    {r : UniformReading} : (uniformReading scope d).outcome = .ok r ↔ Reads scope d r :=
  outcome_uniformReading_eq_ok_iff_of_not_passes fun passes => by
    rw [passes.2] at expands
    cases expands

/-- An attribute declaration is read as what it says. -/
theorem outcome_attributeReading_eq_ok_iff {a : Attribute} :
    (attributeReading scope d).outcome = .ok a ↔ ReadsAttribute scope d a := by
  unfold attributeReading
  constructor
  · intro h
    obtain ⟨type, ht, h⟩ := value_run_bind_eq_ok_iff.mp h
    obtain ⟨count, hc, h⟩ := value_run_bind_eq_ok_iff.mp h
    cases h
    exact ⟨rfl, outcome_ofOption_eq_ok_iff.mp ht, outcome_arrayLength_eq_ok_iff.mp hc, rfl⟩
  · rintro ⟨hn, ht, hc, hs⟩
    refine value_run_bind_eq_ok_iff.mpr ⟨a.type, outcome_ofOption_eq_ok_iff.mpr ht, ?_⟩
    refine value_run_bind_eq_ok_iff.mpr ⟨a.count, outcome_arrayLength_eq_ok_iff.mpr hc, ?_⟩
    rw [← hn, ← hs]
    rfl

end ShaderInterface.Analysis
