import ShaderInterface.Proofs.Analysis.Program
import ShaderInterface.Proofs.Declaration.Declarators
import ShaderInterface.Proofs.Struct.Expansion
import ShaderInterface.Proofs.Struct.Table

/-!
# Every variable that is declared is reported

A stage that has an interface reports each variable that its declarations name: an attribute under
its name, and a uniform by an entry that stands for it. The exception is a declaration that is
`Silent`, of a struct that is passed over or that has no fields.

So a variable that is spelled is left out only where its statement does not declare it, and a
statement declares all it spells when no size of it has a comma (`declarators_reported`).
-/

namespace ShaderInterface

open Glsl

/-- The interface has an entry of the variable: of a uniform one that stands for it, of an attribute
one with its name. -/
def StageInterface.Reports (i : StageInterface) (name : String) : Keyword → Prop
  | .uniform => ∃ entry u, i.uniforms.get? entry = some u ∧ standsFor entry name
  | .attribute => ∃ a, i.attributes.get? name = some a

/-! ## Expansions without entries -/

namespace Struct

variable {table : Table} {type name : String} {count : Nat} {stage : Stage}

theorem baseEntries_ne_nil (name : String) (base : BaseType) (count : Nat) (stage : Stage) :
    baseEntries name base count stage ≠ [] := by
  unfold baseEntries
  split
  · exact List.cons_ne_nil _ _
  · next positive => simpa using positive

theorem elements_ne_nil (name : String) (count : Nat) : elements name count ≠ [] := by
  unfold elements
  split
  · exact List.cons_ne_nil _ _
  · next positive => simpa using positive

theorem Field.names_ne_nil {f : Field} (h : f.Populated) (name : String) : f.names name ≠ [] := by
  unfold Field.names
  cases hf : f.length with
  | none => exact List.cons_ne_nil _ _
  | some length =>
    have positive := h length hf
    simp only [ne_eq, List.map_eq_nil_iff, List.range_eq_nil]
    omega

/-- A variable of struct type has entries where the struct has fields. -/
theorem fieldEntries_ne_nil {fields : List (Field × BaseType)} (nonempty : fields ≠ [])
    (populated : ∀ f ∈ fields, f.1.Populated) :
    fieldEntries type name fields count stage ≠ [] := by
  obtain ⟨element, he⟩ := List.exists_mem_of_ne_nil _ (elements_ne_nil name count)
  obtain ⟨f, hf⟩ := List.exists_mem_of_ne_nil _ nonempty
  obtain ⟨entry, hn⟩ := List.exists_mem_of_ne_nil _
    (Field.names_ne_nil (populated f hf) element.1)
  exact List.ne_nil_of_mem <| List.mem_flatMap.mpr ⟨element, he, List.mem_flatMap.mpr
    ⟨f, hf, List.mem_map_of_mem hn⟩⟩

/-- Only a struct without fields expands to nothing. -/
theorem fields_eq_nil_of_expand (populated : table.Populated)
    (h : (expand table type name count stage).outcome = .ok []) :
    BaseType.ofToken? type = none ∧
      ∃ definition, table[type]? = some definition ∧ definition.fields = [] := by
  cases hb : BaseType.ofToken? type with
  | some base =>
    have none := (outcome_expand_of_base hb).symm.trans h
    exact absurd (Except.ok.inj none) (baseEntries_ne_nil name base count stage)
  | none =>
    obtain ⟨definition, fields, found, -, typed, none⟩ :=
      (outcome_expand_eq_ok_iff_of_struct hb).mp h
    refine ⟨rfl, definition, found, ?_⟩
    by_contra nonempty
    refine fieldEntries_ne_nil ?_ (fun f hf => ?_) none.symm
    · rintro rfl
      exact nonempty (List.forall₂_nil_right_iff.mp typed)
    · obtain ⟨f', hf', same, -⟩ := mem_right_of_forall₂ typed hf
      rw [same]
      exact populated type definition found f' hf'

end Struct

namespace Analysis

open Declaration

/-! ## Declared variables -/

/-- A declaration that says nothing of its variable: it is passed over, or it is of a struct
without fields. -/
def Scope.Silent (scope : Scope) (d : Declaration) : Prop :=
  scope.Passes d ∨ BaseType.ofToken? d.type = none ∧
    ∃ definition, scope.structs[d.type]? = some definition ∧ definition.fields = []

section Reading

variable {scope : Scope} {d : Declaration} {r : UniformReading}

/-- What is read of a uniform declaration has its name, and entries that stand for it; there are
some, or the declaration is silent. -/
structure Tells (scope : Scope) (d : Declaration) (r : UniformReading) : Prop where
  name : r.name = d.name
  standsFor : ∀ u ∈ r.entries, standsFor u.name r.name
  nonempty : r.entries ≠ [] ∨ scope.Silent d

theorem tells_of_uniformReading (populated : scope.structs.Populated)
    (h : (uniformReading scope d).outcome = .ok r) : Tells scope d r := by
  by_cases passes : scope.Passes d
  · cases (outcome_uniformReading_of_passes passes).symm.trans h
    exact ⟨rfl, fun u hu => (by cases hu), .inr (.inl passes)⟩
  · obtain ⟨name, ⟨length, -, he⟩, -⟩ :=
      (outcome_uniformReading_eq_ok_iff_of_not_passes passes).mp h
    refine ⟨name, name ▸ Struct.standsFor_of_mem_expand he, ?_⟩
    by_cases empty : r.entries = []
    · rw [empty] at he
      exact .inr (.inr (Struct.fields_eq_nil_of_expand populated he))
    · exact .inl empty

/-- An interface that holds a reading with entries reports its name. -/
theorem reports_of_holds {i : StageInterface} {rs : List UniformReading} (h : Holds i rs)
    (hr : r ∈ rs) (stands : ∀ u ∈ r.entries, standsFor u.name r.name) (nonempty : r.entries ≠ []) :
    i.Reports r.name .uniform := by
  obtain ⟨u, hu⟩ := List.exists_mem_of_ne_nil _ nonempty
  have named : u ∈ (rs.flatMap (·.entries)).filter fun v => v.name = u.name :=
    List.mem_filter.mpr ⟨List.mem_flatMap.mpr ⟨r, hr, hu⟩, by simp⟩
  have last := List.getLast?_eq_some_getLast (List.ne_nil_of_mem named)
  exact ⟨u.name, _, (h.uniforms u.name).trans last, stands u hu⟩

end Reading

section Stage

variable {parse : Hint.Parser} {config : Config} {which : Stage} {text : String}
  {i : StageInterface} {macros : Macro.Table} {d : Declaration}

/-- The last declaration of the name is silent. -/
def Config.SilentLast (config : Config) (parse : Hint.Parser) (macros : Macro.Table)
    (which : Stage) (text name : String) : Prop :=
  ∃ d ∈ lastOfEach (·.name) (config.declarations macros text .uniform),
    d.name = name ∧ (config.scope parse macros which text).Silent d

/-- Declarations of base types are not silent. -/
theorem not_silentLast {name : String}
    (base : ∀ d ∈ config.declarations macros text .uniform, (BaseType.ofToken? d.type).isSome) :
    ¬ config.SilentLast parse macros which text name := by
  rintro ⟨d, hd, -, silent⟩
  have none : BaseType.ofToken? d.type = none := silent.elim (·.1) (·.1)
  have some := base d (mem_of_mem_lastOfEach hd)
  rw [none] at some
  cases some

/-- A declared uniform is reported, unless its last declaration is silent. -/
theorem reports_uniform_of_mem_declarations
    (resolved : (Macro.Table.ofText (Comment.blank text.toList) config.macroPasses).outcome =
      .ok macros)
    (hi : (stage parse config which text).outcome = .ok i)
    (hd : d ∈ config.declarations macros text .uniform) :
    i.Reports d.name .uniform ∨ config.SilentLast parse macros which text d.name := by
  obtain ⟨rs, as, hrs, -, rfl⟩ := (outcome_stage_eq_ok_iff resolved).mp hi
  have tells : List.Forall₂ (Tells (config.scope parse macros which text))
      (config.declarations macros text .uniform) rs :=
    hrs.imp fun _ _ => tells_of_uniformReading (Struct.populated_ofText macros _)
  have proper : ∀ r ∈ rs, r.Proper := by
    intro r hr
    obtain ⟨e, he, told⟩ := mem_right_of_forall₂ tells hr
    exact ⟨told.name ▸ isIdentifier_of_mem_scan he, told.standsFor⟩
  have held := (holds_foldl_declareUniform (holds_empty which text) proper).foldl_insertAttribute as
  have lasts := forall₂_lastOfEach (fun _ _ told => told.name.symm) tells
  -- of the declarations of the name the last one counts
  obtain ⟨last, hl, same⟩ := List.mem_map.mp
    (mem_map_lastOfEach.mpr (List.mem_map_of_mem (f := (·.name)) hd))
  obtain ⟨r, hr, told⟩ := mem_left_of_forall₂ lasts hl
  rcases told.nonempty with nonempty | silent
  · left
    rw [← same, ← told.name]
    exact reports_of_holds held hr told.standsFor nonempty
  · exact .inr ⟨last, hl, same, silent⟩

/-- A declared attribute is reported. -/
theorem reports_attribute_of_mem_declarations
    (resolved : (Macro.Table.ofText (Comment.blank text.toList) config.macroPasses).outcome =
      .ok macros)
    (hi : (stage parse config which text).outcome = .ok i)
    (hd : d ∈ config.declarations macros text .attribute) :
    i.Reports d.name .attribute := by
  obtain ⟨rs, as, -, has, rfl⟩ := (outcome_stage_eq_ok_iff resolved).mp hi
  obtain ⟨a, ha, read⟩ := mem_left_of_forall₂ has hd
  have name := (outcome_attributeReading_eq_ok_iff.mp read).name
  have held : HoldsAttributes (assemble which text rs as) as :=
    holdsAttributes_foldl_insertAttribute (attributes_foldl_declareUniform rs _) as
  have named : a ∈ as.filter fun b => b.name = d.name :=
    List.mem_filter.mpr ⟨ha, by simpa using name⟩
  have last := List.getLast?_eq_some_getLast (List.ne_nil_of_mem named)
  exact ⟨_, (held.attributes d.name).trans last⟩

end Stage

/-! ## Spelled variables -/

/-- **A variable that is spelled is declared and reported, where no size in its statement has a
comma.** A text spells statements, and a scan gives the declarations of one statement after the
other, which are those that it spells exactly when no size of it has a comma. A stage that has an
interface reports all that such statements spell in its text, but for the uniforms whose last
declaration is silent. -/
theorem declarators_reported (s written : List Char) (keyword : Keyword) :
    (∃ ws, Spells keyword.word.toList none s ws) ∧
    ∀ ws, Spells keyword.word.toList none s ws →
      (∃ groups : List (List Declaration), scan s written keyword = groups.flatten ∧
        List.Forall₂ (MadeBy keyword) ws groups) ∧
      ∀ (parse : Hint.Parser) (config : Config) (which : Stage) (text : String)
        (macros : Macro.Table) (i : StageInterface),
        (Macro.Table.ofText (Comment.blank text.toList) config.macroPasses).outcome = .ok macros →
        config.scanned macros text = s → (stage parse config which text).outcome = .ok i →
        ∀ w ∈ ws, w.Commaless → ∀ d ∈ w.declarators,
          i.Reports (String.ofList d.name.1) keyword ∨
            keyword = .uniform ∧
              config.SilentLast parse macros which text (String.ofList d.name.1) := by
  refine ⟨exists_spells _ _ s, fun ws spelled => ⟨exists_madeBy_scan spelled written, ?_⟩⟩
  rintro parse config which text macros i resolved rfl hi w hw commaless d hd
  obtain ⟨e, he, name⟩ := exists_mem_scan spelled text.toList hw commaless hd
  rw [← name]
  match keyword, he with
  | .uniform, he =>
    exact (reports_uniform_of_mem_declarations resolved hi he).imp_right fun silent =>
      ⟨rfl, silent⟩
  | .attribute, he => exact .inl (reports_attribute_of_mem_declarations resolved hi he)

/-- An array and a single variable in one statement. -/
def arrayAndSingle : Spelling where
  gap := .space
  precision := none
  type := ⟨"float".toList, by decide +kernel⟩
  typeGap := .space
  first :=
    { name := ⟨"xs".toList, by decide +kernel⟩
      gap := .none
      size := some { text := ⟨"2".toList, by simp⟩, tail := .none } }
  others :=
    [(.space, { name := ⟨"y".toList, by decide +kernel⟩, gap := .none, size := none })]

/-- The text of the statement. -/
def arrayAndSingleText : String := "uniform float xs[2], y;"

theorem spells_arrayAndSingle :
    Spells Keyword.uniform.word.toList none arrayAndSingleText.toList [arrayAndSingle] := by
  have text : arrayAndSingleText.toList =
      Keyword.uniform.word.toList ++ (arrayAndSingle.text ++ []) := by decide +kernel
  exact text ▸ .take rfl .nil

theorem declarators_reported_arrayAndSingle :
    (∃ groups : List (List Declaration),
      scan arrayAndSingleText.toList [] .uniform = groups.flatten ∧
        List.Forall₂ (MadeBy .uniform) [arrayAndSingle] groups) ∧
    ∃ i, (stage Hint.terse {} .vertex arrayAndSingleText).outcome = .ok i ∧
      i.Reports "xs" .uniform ∧ i.Reports "y" .uniform := by
  have commaless : arrayAndSingle.Commaless := by
    simp [Spelling.Commaless, Spelling.declarators, arrayAndSingle]
  obtain ⟨i, hi⟩ : ∃ i, (stage Hint.terse {} .vertex arrayAndSingleText).outcome = .ok i :=
    exists_ok_of_isSome (by decide +kernel)
  have resolved : (Macro.Table.ofText (Comment.blank arrayAndSingleText.toList) 64).outcome =
      .ok {} := by with_unfolding_all rfl
  have blank : Config.scanned {} {} arrayAndSingleText = arrayAndSingleText.toList := by
    decide +kernel
  obtain ⟨-, reported⟩ := declarators_reported arrayAndSingleText.toList [] .uniform
  obtain ⟨made, reported⟩ := reported [arrayAndSingle] spells_arrayAndSingle
  have reported := reported Hint.terse {} .vertex arrayAndSingleText {} i resolved blank hi
    arrayAndSingle List.mem_cons_self commaless
  have spoken : ∀ name, ¬ (Keyword.uniform = .uniform ∧
      Config.SilentLast {} Hint.terse {} .vertex arrayAndSingleText name) := fun name silent =>
    not_silentLast (by decide +kernel) silent.2
  refine ⟨made, i, hi, ?_, ?_⟩
  · exact (reported arrayAndSingle.first List.mem_cons_self).resolve_right (spoken _)
  · exact (reported _ (List.mem_cons_of_mem _ List.mem_cons_self)).resolve_right (spoken _)

/-- A single statement whose size has a comma. -/
def commaInSize : Spelling where
  gap := .space
  precision := none
  type := ⟨"float".toList, by decide +kernel⟩
  typeGap := .space
  first :=
    { name := ⟨"uA".toList, by decide +kernel⟩
      gap := .none
      size := some { text := ⟨"max(2, 3)".toList, by simp⟩, tail := .none } }
  others := []

/-- The text of the statement. -/
def commaText : String := "uniform float uA[max(2, 3)];"

theorem spells_commaText :
    Spells Keyword.uniform.word.toList none commaText.toList [commaInSize] := by
  have text : commaText.toList = Keyword.uniform.word.toList ++ (commaInSize.text ++ []) := by
    decide +kernel
  exact text ▸ .take rfl .nil

/-- A variable whose size has a comma is not declared, and the stage that leaves it out has an
interface all the same. -/
theorem not_forall_declared :
    (¬ ∀ (s written : List Char) (keyword : Keyword) (ws : List Spelling),
      Spells keyword.word.toList none s ws →
        (scan s written keyword).map nameAndSize = ws.flatMap (·.declared)) ∧
    ¬ ∀ (text : String) (i : StageInterface) (ws : List Spelling),
      (stage Hint.terse {} .vertex text).outcome = .ok i →
      Spells Keyword.uniform.word.toList none (Comment.blank text.toList) ws →
        ∀ w ∈ ws, (BaseType.ofToken? (String.ofList w.type.1)).isSome →
          ∀ d ∈ w.declarators, i.Reports (String.ofList d.name.1) .uniform := by
  constructor
  · intro h
    have none : scan commaText.toList commaText.toList .uniform = [] := by decide +kernel
    have declared := h _ commaText.toList _ _ spells_commaText
    rw [none] at declared
    cases declared
  · intro h
    have order : (stage Hint.terse {} .vertex commaText).outcome.toOption.map (·.uniforms.order) =
        some [] := by decide +kernel
    obtain ⟨i, hi, ho⟩ := Option.map_eq_some_iff.mp order
    have hi := toOption_eq_some_iff.mp hi
    have blank : Comment.blank commaText.toList = commaText.toList := by decide +kernel
    obtain ⟨entry, u, found, -⟩ := h commaText i [commaInSize] hi (blank ▸ spells_commaText)
      commaInSize List.mem_cons_self (by decide +kernel) commaInSize.first List.mem_cons_self
    have member : entry ∈ i.uniforms.order := by
      rw [(coherent_stage hi).uniforms.mem_order_iff, Roster.mem_entries_iff, found]
      rfl
    rw [ho] at member
    cases member

end Analysis

end ShaderInterface
