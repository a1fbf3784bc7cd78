import ShaderInterface.Struct.Expansion
import ShaderInterface.Proofs.Outcome

/-!
# What a declaration expands to

A type that is a base type expands to the entries of this type (`outcome_expand_of_base`), any
other to those of the struct of this name, which must be free of errors and have fields of base
types only (`outcome_expand_eq_ok_iff_of_struct`). The first error of a struct is the failure of
every expansion (`outcome_expand_of_errors`).
-/

namespace ShaderInterface

open Glsl

/-- The entry stands for a field of a variable of struct type. -/
def Uniform.isField (u : Uniform) : Bool :=
  match u.kind with
  | .field _ _ => true
  | _ => false

namespace Struct

variable {table : Table} {type name : String} {count : Nat} {stage : Stage}
  {definition : Definition} {us : List Uniform}

/-- A field gets the base type that its type spells. -/
theorem outcome_typed_eq_ok_iff {f : Field} {typed : Field × BaseType} :
    (Field.typed name f).outcome = .ok typed ↔
      typed.1 = f ∧ BaseType.ofToken? f.type = some typed.2 := by
  unfold Field.typed
  constructor
  · intro h
    obtain ⟨base, hb, h⟩ := value_run_bind_eq_ok_iff.mp h
    cases h
    exact ⟨rfl, outcome_ofOption_eq_ok_iff.mp hb⟩
  · rintro ⟨rfl, hb⟩
    exact value_run_bind_eq_ok_iff.mpr ⟨typed.2, outcome_ofOption_eq_ok_iff.mpr hb, rfl⟩

/-- Every field has the base type that its type spells. -/
def Typed (fields : List Field) (typed : List (Field × BaseType)) : Prop :=
  List.Forall₂ (fun f t => t.1 = f ∧ BaseType.ofToken? f.type = some t.2) fields typed

theorem outcome_mapM_typed_eq_ok_iff {fields : List Field} {typed : List (Field × BaseType)} :
    (fields.mapM (Field.typed name)).outcome = .ok typed ↔ Typed fields typed := by
  refine value_run_mapM_eq_ok_iff.trans ?_
  exact ⟨fun h => h.imp fun _ _ => outcome_typed_eq_ok_iff.mp,
    fun h => h.imp fun _ _ => outcome_typed_eq_ok_iff.mpr⟩

theorem outcome_expand_of_base {base : BaseType} (h : BaseType.ofToken? type = some base) :
    (expand table type name count stage).outcome = .ok (baseEntries name base count stage) := by
  rw [expand, h]
  rfl

theorem outcome_expand_eq_ok_iff_of_struct (h : BaseType.ofToken? type = none) :
    (expand table type name count stage).outcome = .ok us ↔
      ∃ definition typed, table[type]? = some definition ∧ definition.errors = [] ∧
        Typed definition.fields typed ∧
        us = fieldEntries definition.type name typed count stage := by
  rw [expand, h]
  constructor
  · intro h
    obtain ⟨definition, found, h⟩ := value_run_bind_eq_ok_iff.mp h
    cases he : definition.errors with
    | cons e es =>
      rw [he] at h
      cases h
    | nil =>
      rw [he] at h
      obtain ⟨typed, ht, h⟩ := value_run_bind_eq_ok_iff.mp h
      cases h
      exact ⟨definition, typed, outcome_ofOption_eq_ok_iff.mp found, he,
        outcome_mapM_typed_eq_ok_iff.mp ht, rfl⟩
  · rintro ⟨definition, typed, found, he, ht, rfl⟩
    refine value_run_bind_eq_ok_iff.mpr ⟨definition, outcome_ofOption_eq_ok_iff.mpr found, ?_⟩
    rw [he]
    exact value_run_bind_eq_ok_iff.mpr ⟨typed, outcome_mapM_typed_eq_ok_iff.mpr ht, rfl⟩

/-- A struct with errors does not expand. -/
theorem outcome_expand_of_errors (h : BaseType.ofToken? type = none)
    (found : table[type]? = some definition) {e : Error} {es : List Error}
    (errors : definition.errors = e :: es) :
    (expand table type name count stage).outcome = .error e := by
  rw [expand, h]
  refine value_run_bind_eq_error_iff.mpr (.inr ⟨definition, ?_, ?_⟩)
  · exact outcome_ofOption_eq_ok_iff.mpr found
  · rw [errors]
    rfl

/-- Base types make no entries of fields, and structs no others. -/
theorem isField_of_mem_expand (h : (expand table type name count stage).outcome = .ok us) :
    ∀ u ∈ us, u.isField = (BaseType.ofToken? type).isNone := by
  intro u hu
  cases hb : BaseType.ofToken? type with
  | some base =>
    cases (outcome_expand_of_base hb).symm.trans h
    unfold baseEntries at hu
    split at hu
    · obtain rfl := List.mem_singleton.mp hu
      rfl
    · obtain ⟨index, -, rfl⟩ := List.mem_map.mp hu
      rfl
  | none =>
    obtain ⟨definition, typed, -, -, -, rfl⟩ := (outcome_expand_eq_ok_iff_of_struct hb).mp h
    obtain ⟨element, -, hu⟩ := List.mem_flatMap.mp hu
    obtain ⟨f, -, hu⟩ := List.mem_flatMap.mp hu
    obtain ⟨entry, -, rfl⟩ := List.mem_map.mp hu
    rfl

end Struct

end ShaderInterface
