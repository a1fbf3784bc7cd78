import Mathlib.Data.List.Induction
import ShaderInterface.Proofs.Analysis.Reading
import ShaderInterface.Proofs.Interface.Naming

/-!
# The structs of a text

A struct type stands for its last definition in the text (`getElem?_ofText`). The fields of a
definition are `Field.Proper`, whatever its body: their names are identifiers, and those that are
arrays have one element at least (`proper_of_getElem?_ofText`).
-/

namespace ShaderInterface

open Text

/-- In a map that is filled from a list, of the elements of a name the last counts. -/
theorem NameMap.getElem?_foldl_insert {α β : Type} (key : β → String) (value : β → α)
    (bs : List β) (m : NameMap α) (k : String) :
    (bs.foldl (fun m b => m.insert (key b) (value b)) m)[k]? =
      ((bs.filter fun b => key b = k).getLast?.map value).or m[k]? := by
  induction bs using List.reverseRecOn with
  | nil => rfl
  | append_singleton bs b ih =>
    rw [List.foldl_append, List.foldl_cons, List.foldl_nil, NameMap.getElem?_insert', ih,
      List.filter_append]
    by_cases same : key b = k
    · rw [if_pos same, List.filter_cons_of_pos (by simpa using same), List.filter_nil,
        List.getLast?_concat]
      rfl
    · rw [if_neg same, List.filter_cons_of_neg (by simpa using same), List.filter_nil,
        List.append_nil]

namespace Struct

variable {macros : Macro.Table} {type : String} {s : List Char}

/-- A struct type stands for its last definition. -/
theorem getElem?_ofText (macros : Macro.Table) (s : List Char) (type : String) :
    (Table.ofText macros s)[type]? =
      ((occurrencesFrom none s).filter fun o => String.ofList o.type = type).getLast?.map
        fun o => Definition.ofBody macros type o.body := by
  have filled := NameMap.getElem?_foldl_insert (fun o : Occurrence => String.ofList o.type)
    (fun o => Definition.ofBody macros (String.ofList o.type) o.body) (occurrencesFrom none s) ∅
    type
  have empty : (∅ : Table)[type]? = none := by simp
  rw [empty, Option.or_none] at filled
  refine filled.trans ?_
  cases last : ((occurrencesFrom none s).filter
    fun o => String.ofList o.type = type).getLast? with
  | none => rfl
  | some o =>
    obtain ⟨-, same⟩ := List.mem_filter.mp (List.mem_of_getLast? last)
    rw [Option.map_some, Option.map_some, of_decide_eq_true same]

/-! ## Fields -/

/-- A field that is an array has one element at least. -/
def Field.Populated (f : Field) : Prop := ∀ length ∈ f.length, 0 < length

/-- The name of a field is an identifier, and it is populated. -/
structure Field.Proper (f : Field) : Prop where
  ident : isIdentifier f.name.toList
  populated : f.Populated

theorem proper_of_field {fieldType text : List Char} {f : Field}
    (h : field macros type fieldType text = .ok f) : f.Proper := by
  unfold field at h
  split at h
  · cases h
  · next name hd =>
    cases h
    refine ⟨?_, nofun⟩
    rw [String.toList_ofList]
    exact Declaration.isIdentifier_of_declarator? hd
  · next name size hd =>
    split at h
    · next length found =>
      cases h
      refine ⟨?_, ?_⟩
      · rw [String.toList_ofList]
        exact Declaration.isIdentifier_of_declarator? hd
      · rintro _ ⟨⟩
        obtain ⟨v, -, hv⟩ := Option.bind_eq_some_iff.mp found
        exact (Analysis.positive?_eq_some_iff.mp hv).2.1
    · cases h

theorem eq_ok_of_ok? {ε α : Type} {x : Except ε α} {a : α} (h : ok? x = some a) : x = .ok a := by
  cases x with
  | ok b => exact congrArg Except.ok (Option.some_inj.mp h)
  | error e => cases h

theorem proper_of_mem_ofBody {body : List Char} {f : Field}
    (h : f ∈ (Definition.ofBody macros type body).fields) : f.Proper := by
  obtain ⟨result, hr, hf⟩ := List.mem_filterMap.mp h
  obtain ⟨statement, -, hr⟩ := List.mem_flatMap.mp hr
  unfold fieldsOfStatement at hr
  split at hr
  · obtain ⟨text, -, rfl⟩ := List.mem_map.mp hr
    exact proper_of_field (eq_ok_of_ok? hf)
  · obtain rfl := List.mem_singleton.mp hr
    cases hf

/-- A definition of a text has the type under which it is found, and proper fields. -/
theorem proper_of_getElem?_ofText {definition : Definition}
    (found : (Table.ofText macros s)[type]? = some definition) :
    definition.type = type ∧ ∀ f ∈ definition.fields, f.Proper := by
  rw [getElem?_ofText] at found
  obtain ⟨o, -, rfl⟩ := Option.map_eq_some_iff.mp found
  exact ⟨rfl, fun f hf => proper_of_mem_ofBody hf⟩

/-- No struct of the table has arrays without elements. -/
def Table.Populated (table : Table) : Prop :=
  ∀ (type : String) (definition : Definition), table[type]? = some definition →
    ∀ f ∈ definition.fields, f.Populated

theorem populated_ofText (macros : Macro.Table) (s : List Char) :
    (Table.ofText macros s).Populated := fun _ _ found f hf =>
  ((proper_of_getElem?_ofText found).2 f hf).populated

end Struct

end ShaderInterface
