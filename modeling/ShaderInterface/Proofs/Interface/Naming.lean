import Mathlib.Data.List.Basic
import ShaderInterface.Declaration.Scan
import ShaderInterface.Interface.Stage
import ShaderInterface.Reflection.Context
import ShaderInterface.Proofs.Struct.Expansion
import ShaderInterface.Proofs.Text.Identifier

/-!
# Names of entries and of declarations

Declared names are identifiers (`isIdentifier_of_mem_scan`), and every entry that a declaration
makes stands for its name (`standsFor_of_mem_expand`). No entry stands for two identifiers
(`eq_of_standsFor`), not even where one is the beginning of the other, so that taking out the
entries of a variable leaves those of all others alone.
-/

namespace ShaderInterface

open Glsl Text

variable {entry declared other : String}

/-! ## What an entry stands for -/

/-- An entry stands for the name with which it begins, where an index or a field follows, or
nothing. -/
theorem standsFor_iff :
    standsFor entry declared ↔
      ∃ rest, entry.toList = declared.toList ++ rest ∧ ∀ c ∈ rest.head?, c = '[' ∨ c = '.' := by
  rw [standsFor, Option.any_eq_true]
  constructor
  · rintro ⟨rest, hr, hh⟩
    refine ⟨rest, afterPrefix?_eq_some_iff.mp hr, fun c hc => ?_⟩
    rw [Option.mem_def.mp hc] at hh
    simpa using hh
  · rintro ⟨rest, hr, hh⟩
    refine ⟨rest, afterPrefix?_eq_some_iff.mpr hr, ?_⟩
    cases hc : rest.head? with
    | none => rfl
    | some c => simpa using hh c hc

theorem standsFor_self (name : String) : standsFor name name :=
  standsFor_iff.mpr ⟨[], by simp, by simp⟩

/-- What follows an entry begins with an index or a field where the entry is the name itself. -/
theorem standsFor_append {rest : String} (h : standsFor entry declared)
    (hr : ∀ c ∈ rest.toList.head?, c = '[' ∨ c = '.') : standsFor (entry ++ rest) declared := by
  obtain ⟨middle, he, hm⟩ := standsFor_iff.mp h
  refine standsFor_iff.mpr ⟨middle ++ rest.toList, ?_, fun c hc => ?_⟩
  · rw [String.toList_append, he, List.append_assoc]
  · cases middle with
    | nil => exact hr c hc
    | cons d middle => exact hm c hc

theorem standsFor_elementName (h : standsFor entry declared) (index : Nat) :
    standsFor (elementName entry index) declared := by
  rw [elementName, String.append_assoc, String.append_assoc]
  exact standsFor_append h (by simp)

theorem standsFor_fieldName (h : standsFor entry declared) (field : String) :
    standsFor (entry ++ "." ++ field) declared := by
  rw [String.append_assoc]
  exact standsFor_append h (by simp)

/-- The identifier for which an entry stands is all that comes before the first index or field. -/
theorem takeWhile_of_standsFor (ident : isIdentifier declared.toList)
    (h : standsFor entry declared) : entry.toList.takeWhile isIdentChar = declared.toList := by
  obtain ⟨rest, he, hr⟩ := standsFor_iff.mp h
  rw [he, List.takeWhile_append_of_pos (isIdentChar_of_mem ident)]
  cases rest with
  | nil => simp
  | cons c rest =>
    have stop : isIdentChar c = false := by
      rcases hr c rfl with rfl | rfl <;> rfl
    rw [List.takeWhile_cons_of_neg (by simp [stop]), List.append_nil]

/-- No entry stands for two identifiers. -/
theorem eq_of_standsFor (ident : isIdentifier declared.toList) (ident' : isIdentifier other.toList)
    (h : standsFor entry declared) (h' : standsFor entry other) : declared = other := by
  apply String.toList_injective
  rw [← takeWhile_of_standsFor ident h, takeWhile_of_standsFor ident' h']

/-- The declared name is read off an entry that stands for it. -/
theorem baseName_of_standsFor (ident : isIdentifier declared.toList)
    (h : standsFor entry declared) : Reflection.baseName entry = declared := by
  obtain ⟨rest, he, hr⟩ := standsFor_iff.mp h
  have before : ∀ c ∈ declared.toList, (c != '[' && c != '.') = true := by
    intro c hc
    have char := isIdentChar_of_mem ident c hc
    by_contra stop
    have stop : c = '[' ∨ c = '.' := by simpa [or_iff_not_imp_left] using stop
    rcases stop with rfl | rfl <;> exact absurd char (by decide)
  have stop : ∀ c ∈ rest.head?, (c != '[' && c != '.') = false := by
    intro c hc
    rcases hr c hc with rfl | rfl <;> rfl
  rw [Reflection.baseName, he, takeWhile_run before stop, String.ofList_toList]

/-! ## What declarations make -/

namespace Struct

variable {name type : String} {table : Table} {count : Nat} {stage : Stage}

theorem standsFor_of_mem_baseEntries {base : BaseType} {u : Uniform}
    (h : u ∈ baseEntries name base count stage) : standsFor u.name name := by
  unfold baseEntries at h
  split at h
  · obtain rfl := List.mem_singleton.mp h
    exact standsFor_self name
  · obtain ⟨index, -, rfl⟩ := List.mem_map.mp h
    exact standsFor_elementName (standsFor_self name) index

theorem standsFor_of_mem_elements {element : String × Nat} (h : element ∈ elements name count) :
    standsFor element.1 name := by
  unfold elements at h
  split at h
  · obtain rfl := List.mem_singleton.mp h
    exact standsFor_self name
  · obtain ⟨index, -, rfl⟩ := List.mem_map.mp h
    exact standsFor_elementName (standsFor_self name) index

theorem Field.standsFor_of_mem_names {f : Field} {element : String} (he : standsFor element name)
    {entry : String} (h : entry ∈ f.names element) : standsFor entry name := by
  have qualified := standsFor_fieldName he f.name
  unfold Field.names at h
  cases hf : f.length with
  | none =>
    rw [hf] at h
    obtain rfl := List.mem_singleton.mp h
    exact qualified
  | some length =>
    rw [hf] at h
    obtain ⟨index, -, rfl⟩ := List.mem_map.mp h
    exact standsFor_elementName qualified index

theorem standsFor_of_mem_fieldEntries {fields : List (Field × BaseType)} {u : Uniform}
    (h : u ∈ fieldEntries type name fields count stage) : standsFor u.name name := by
  obtain ⟨element, he, h⟩ := List.mem_flatMap.mp h
  obtain ⟨⟨f, base⟩, -, h⟩ := List.mem_flatMap.mp h
  obtain ⟨entry, hentry, rfl⟩ := List.mem_map.mp h
  exact f.standsFor_of_mem_names (standsFor_of_mem_elements he) hentry

/-- Every entry that a declaration makes stands for the declared name. -/
theorem standsFor_of_mem_expand {us : List Uniform}
    (h : (expand table type name count stage).outcome = .ok us) :
    ∀ u ∈ us, standsFor u.name name := by
  cases hb : BaseType.ofToken? type with
  | some base =>
    cases (outcome_expand_of_base hb).symm.trans h
    exact fun u hu => standsFor_of_mem_baseEntries hu
  | none =>
    obtain ⟨definition, typed, -, -, -, rfl⟩ := (outcome_expand_eq_ok_iff_of_struct hb).mp h
    exact fun u hu => standsFor_of_mem_fieldEntries hu

end Struct

namespace Declaration

theorem isIdentifier_of_declarator? {s name : List Char} {size : Option (List Char)}
    (h : declarator? s = some (name, size)) : isIdentifier name := by
  obtain ⟨⟨taken, rest⟩, ht, h⟩ := Option.bind_eq_some_iff.mp h
  have ident := (takeIdentifier_eq_some ht).1
  dsimp only at h
  split at h
  · cases h
    exact ident
  · split at h
    · cases h
      exact ident
    · cases h
  · cases h

/-- Declared names are identifiers. -/
theorem isIdentifier_of_mem_scan {s written : List Char} {keyword : Keyword} {keep : String → Bool}
    {d : Declaration} (h : d ∈ scan s written keyword keep) : isIdentifier d.name.toList := by
  obtain ⟨st, -, h⟩ := List.mem_flatMap.mp (List.mem_filter.mp h).1
  obtain ⟨⟨name, size⟩, hd, rfl⟩ := List.mem_map.mp h
  obtain ⟨text, -, hd⟩ := List.mem_filterMap.mp hd
  rw [String.toList_ofList]
  exact isIdentifier_of_declarator? hd

end Declaration

end ShaderInterface
