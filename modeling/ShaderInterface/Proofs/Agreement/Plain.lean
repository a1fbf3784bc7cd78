import Mathlib.Algebra.BigOperators.Group.List.Basic
import ShaderInterface.Proofs.Reflection.Entries

/-!
# The uniforms of the analysis and of reflection

Where texts without macros declare uniforms of base type and without sizes only, the analysis makes
one plain entry for each name, in the stages that declare it (`get?_uniforms_program`). A context
that reports these variables, each once and in any order, gives reflection the same entries: the
stages that the analysis has from merging, reflection has from looking for the names in both texts
(`uniforms_reflect_of_plain`).
-/

namespace ShaderInterface

open Glsl
open Analysis (uniformDeclarations)

/-- A text without macros whose uniforms are of base types and without sizes. -/
structure Plain (text : String) : Prop where
  noMacros : Macro.definitions (Comment.blank text.toList) = []
  baseType : ∀ d ∈ uniformDeclarations text, (BaseType.ofToken? d.type).isSome
  noSize : ∀ d ∈ uniformDeclarations text, d.size = none

/-- The text declares a uniform of the name. -/
def declares (text name : String) : Bool := (uniformDeclarations text).any fun d => d.name = name

/-- The stages whose texts declare a uniform of the name. -/
def declaredIn (vertex fragment name : String) : StageSet where
  vertex := declares vertex name
  fragment := declares fragment name

theorem declares_iff {text name : String} :
    declares text name = true ↔ name ∈ (uniformDeclarations text).map (·.name) := by
  simp [declares]

/-! ## The uniforms of an analysed program -/

namespace Analysis

variable {parse : Hint.Parser} {config : Config} {which : Stage}
  {text vertex fragment name : String} {i : StageInterface} {scope : Scope} {d : Declaration}
  {r : UniformReading}

/-- A declaration is read as one plain entry of its name. -/
structure ReadsPlain (which : Stage) (d : Declaration) (r : UniformReading) : Prop where
  name : r.name = d.name
  entries : ∃ type, r.entries = [.plain r.name type which]

theorem readsPlain_of_outcome (base : (BaseType.ofToken? d.type).isSome) (single : d.size = none)
    (h : (uniformReading scope d).outcome = .ok r) : ReadsPlain scope.stage d r := by
  obtain ⟨type, ht⟩ := Option.isSome_iff_exists.mp base
  rw [uniformReading, ht, Option.isNone_some, Bool.false_and, if_neg Bool.false_ne_true] at h
  obtain ⟨length, hl, h⟩ := value_run_bind_eq_ok_iff.mp h
  obtain ⟨entries, he, h⟩ := value_run_bind_eq_ok_iff.mp h
  obtain ⟨fields, -, h⟩ := value_run_bind_eq_ok_iff.mp h
  rw [arrayLength, single] at hl
  cases hl
  rw [Struct.expand, ht] at he
  cases he
  cases h
  exact ⟨rfl, type, rfl⟩

/-- A plain text is read entry by entry. -/
theorem exists_readsPlain (plain : Plain text)
    (h : (stage parse config which text).outcome = .ok i) :
    ∃ rs as, List.Forall₂ (ReadsPlain which) (uniformDeclarations text) rs ∧
      assemble which text rs as = i := by
  have resolved : (Macro.Table.ofText (Comment.blank text.toList) config.macroPasses).outcome =
      .ok {} := outcome_ofText_of_definitions_eq_nil plain.noMacros _
  obtain ⟨rs, as, hrs, -, hi⟩ := (outcome_stage_eq_ok_iff resolved).mp h
  rw [declarations_of_no_macros] at hrs
  have simple : ∀ d ∈ uniformDeclarations text,
      (BaseType.ofToken? d.type).isSome ∧ d.size = none :=
    fun d hd => ⟨plain.baseType d hd, plain.noSize d hd⟩
  have both := (List.forall₂_and_left _ _).mpr ⟨simple, hrs⟩
  exact ⟨rs, as, both.imp fun d r h => readsPlain_of_outcome h.1.1 h.1.2 h.2, hi⟩

theorem ReadsPlain.proper (h : ReadsPlain which d r) (found : d ∈ uniformDeclarations text) :
    r.Proper where
  ident := h.name ▸ Declaration.isIdentifier_of_mem_scan found
  standsFor := by
    obtain ⟨type, entries⟩ := h.entries
    intro u hu
    rw [entries, List.mem_singleton] at hu
    exact hu ▸ standsFor_self r.name

/-- The entries of plain readings are plain, and each has the name of its reading. -/
theorem mem_entries_of_plain {rs : List UniformReading}
    (plain : ∀ r ∈ rs, ∃ type, r.entries = [.plain r.name type which]) {u : Uniform}
    (hu : u ∈ rs.flatMap (·.entries)) :
    u.name ∈ rs.map (·.name) ∧ ∃ type, u = .plain u.name type which := by
  obtain ⟨r, hr, hu⟩ := List.mem_flatMap.mp hu
  obtain ⟨type, entries⟩ := plain r hr
  rw [entries, List.mem_singleton] at hu
  subst hu
  exact ⟨List.mem_map_of_mem hr, type, rfl⟩

/-- A stage of a plain text has a plain entry for each name that is declared, and no other. -/
theorem get?_uniforms_stage (plain : Plain text)
    (h : (stage parse config which text).outcome = .ok i) (name : String) :
    (declares text name = true ∧ ∃ type, i.uniforms.get? name = some (.plain name type which)) ∨
      (declares text name = false ∧ i.uniforms.get? name = none) := by
  obtain ⟨rs, as, hrs, rfl⟩ := exists_readsPlain plain h
  have names : (uniformDeclarations text).map (·.name) = rs.map (·.name) := by
    rw [← List.forall₂_eq_eq_eq, List.forall₂_map_left_iff, List.forall₂_map_right_iff]
    exact hrs.imp fun d r h => h.name.symm
  have proper : ∀ r ∈ rs, r.Proper := fun r hr => by
    obtain ⟨d, found, hd⟩ := mem_right_of_forall₂ hrs hr
    exact hd.proper found
  have entries : ∀ r ∈ lastOfEach (·.name) rs, ∃ type, r.entries = [.plain r.name type which] :=
    fun r hr => by
      obtain ⟨d, -, hd⟩ := mem_right_of_forall₂ hrs (mem_of_mem_lastOfEach hr)
      exact hd.entries
  have held : Holds (assemble which text rs as) (lastOfEach (·.name) rs) :=
    (holds_foldl_declareUniform (holds_empty which text) proper).foldl_insertAttribute as
  have found := held.uniforms name
  cases last : (((lastOfEach (·.name) rs).flatMap (·.entries)).filter
      fun u => u.name = name).getLast? with
  | some u =>
    have hu := List.mem_filter.mp (List.mem_of_getLast? last)
    obtain ⟨named, type, eq⟩ := mem_entries_of_plain entries hu.1
    obtain rfl : u.name = name := by simpa using hu.2
    rw [mem_map_lastOfEach, ← names] at named
    exact .inl ⟨declares_iff.mpr named, type, (found.trans last).trans (congrArg some eq)⟩
  | none =>
    refine .inr ⟨Bool.eq_false_iff.mpr fun named => ?_, found.trans last⟩
    rw [declares_iff, names, ← mem_map_lastOfEach] at named
    obtain ⟨r, hr, rfl⟩ := List.mem_map.mp named
    obtain ⟨type, eq⟩ := entries r hr
    have here : Uniform.plain r.name type which ∈ (lastOfEach (·.name) rs).flatMap (·.entries) :=
      List.mem_flatMap.mpr ⟨r, hr, eq ▸ List.mem_cons_self⟩
    rw [List.getLast?_eq_none_iff, List.filter_eq_nil_iff] at last
    exact last _ here (by simp [Uniform.plain])

/-- The analysis of plain texts has a plain entry for each name that is declared, in the stages
that declare it, and no other. -/
theorem get?_uniforms_program {M : ProgramInterface} (plainVertex : Plain vertex)
    (plainFragment : Plain fragment) (h : (program parse config vertex fragment).outcome = .ok M)
    {u : Uniform} (hu : M.uniforms.get? name = some u) :
    (declares vertex name || declares fragment name) = true ∧
      ∃ type, u = { name, type, stages := declaredIn vertex fragment name } := by
  obtain ⟨v, f, hv, hf, rfl⟩ := outcome_program_eq_ok_iff.mp h
  have merged : Option.merge Uniform.merge (v.uniforms.get? name) (f.uniforms.get? name) = some u :=
    (Roster.getElem?_entries_merge (coherent_stage hf).uniforms v.uniforms name).symm.trans hu
  unfold declaredIn
  rcases get?_uniforms_stage plainVertex hv name with ⟨dv, tv, ev⟩ | ⟨dv, ev⟩ <;>
    rcases get?_uniforms_stage plainFragment hf name with ⟨df, tf, ef⟩ | ⟨df, ef⟩ <;>
    rw [ev, ef] at merged <;> rw [dv, df] <;> cases merged
  · exact ⟨rfl, tf, rfl⟩
  · exact ⟨rfl, tv, rfl⟩
  · exact ⟨rfl, tf, rfl⟩

end Analysis

/-! ## The uniforms of a reflected program -/

namespace Reflection

variable {vertex fragment text name : String} {report : Report}

/-- A declared name is the whole of a reported name. -/
theorem baseName_of_isIdentifier (h : Text.isIdentifier name.toList) : baseName name = name :=
  baseName_of_standsFor h (standsFor_self name)

/-- A name that is declared is found under itself, so a reported uniform of that name is in the
stages that declare it. -/
theorem stagesOf_eq_declaredIn
    (declared : (declares vertex name || declares fragment name) = true) :
    stagesOf vertex fragment name = declaredIn vertex fragment name := by
  have ident : Text.isIdentifier name.toList := by
    rcases (Bool.or_eq_true _ _).mp declared with h | h <;>
      obtain ⟨d, hd, rfl⟩ := List.mem_map.mp (declares_iff.mp h) <;>
      exact Declaration.isIdentifier_of_mem_scan hd
  have base : ∀ text, declaresBase text name = declares text name := fun text => by
    rw [declaresBase, baseName_of_isIdentifier ident, declares]
  rw [stagesOf, declaredIn, takes, takes, base, base]
  cases hv : declares vertex name <;> cases hf : declares fragment name <;> simp_all

/-- The variable that an entry of one slot reports. -/
def reportedAs (name : String) (u : Uniform) : ActiveVariable where
  name := name
  tag := u.type.tag
  size := 1

/-- The report lists every uniform of the program, each once and in any order. -/
def Report.ListsUniforms (report : Report) (M : ProgramInterface) : Prop :=
  report.uniforms.Perm (M.uniforms.entries.toList.map fun (name, u) => reportedAs name u)

variable {M : ProgramInterface}

theorem Report.ListsUniforms.mem_iff (h : report.ListsUniforms M) {v : ActiveVariable} :
    v ∈ report.uniforms ↔ ∃ u, M.uniforms.get? v.name = some u ∧ v = reportedAs v.name u := by
  rw [List.Perm.mem_iff h, List.mem_map]
  constructor
  · rintro ⟨⟨name, u⟩, hu, rfl⟩
    exact ⟨u, Std.ExtTreeMap.mem_toList_iff_getElem?_eq_some.mp hu, rfl⟩
  · rintro ⟨u, hu, eq⟩
    exact ⟨(v.name, u), Std.ExtTreeMap.mem_toList_iff_getElem?_eq_some.mpr hu, eq.symm⟩

/-- Of a name that the program has, the report lists one variable. -/
theorem Report.ListsUniforms.lastNamed?_eq (h : report.ListsUniforms M) {u : Uniform}
    (hu : M.uniforms.get? name = some u) :
    lastNamed? report.uniforms name = some (reportedAs name u) := by
  have reported : ∃ v ∈ report.uniforms, v.name = name :=
    ⟨reportedAs name u, h.mem_iff.mpr ⟨u, hu, rfl⟩, rfl⟩
  obtain ⟨v, last⟩ := Option.isSome_iff_exists.mp (isSome_lastNamed?_iff.mpr reported)
  have hv := List.mem_filter.mp (List.mem_of_getLast? last)
  obtain ⟨u', hu', eq⟩ := h.mem_iff.mp hv.1
  obtain rfl : v.name = name := by simpa using hv.2
  obtain rfl : u = u' := Option.some.inj (hu.symm.trans hu')
  rw [last, ← eq]

/-- The report takes one slot for each uniform of the program. -/
theorem Report.ListsUniforms.slots_eq (h : report.ListsUniforms M) :
    slots report.uniforms = M.uniforms.size := by
  have sizes := (List.Perm.map (·.size) h).sum_eq
  have ones : ((M.uniforms.entries.toList.map fun (name, u) => reportedAs name u).map (·.size)) =
      M.uniforms.entries.toList.map fun _ => 1 := by
    rw [List.map_map]
    rfl
  rw [slots_eq_sum, sizes, ones, List.map_const', List.sum_replicate_nat, Nat.mul_one,
    Std.ExtTreeMap.length_toList, Roster.size]

/-- The uniforms of a program are of known types, so all that is reported is. -/
theorem Report.ListsUniforms.firstUnknown?_eq_none (h : report.ListsUniforms M)
    (attributeTypes : ∀ v ∈ report.attributes, (BaseType.ofTag? v.tag).isSome) :
    report.firstUnknown? = none := by
  refine Report.firstUnknown?_eq_none_iff.mpr fun v hv unknown => ?_
  rcases List.mem_append.mp hv with hv | hv
  · obtain ⟨u, -, eq⟩ := h.mem_iff.mp hv
    rw [eq, reportedAs, BaseType.ofTag?_tag] at unknown
    cases unknown
  · exact Option.isSome_iff_ne_none.mp (attributeTypes v hv) unknown

end Reflection

/-! ## Both of a program -/

section Program

open Reflection

variable {σ Shader Program : Type} {parse : Hint.Parser} {overflow : Overflow}
  {context : Context σ Shader Program} {s : σ} {report : Report} {config : Analysis.Config}
  {vertex fragment : String} {M : ProgramInterface}

/-- An interface that shows a report of the uniforms of a program has these uniforms, where the
texts of the program are plain. -/
theorem Reflection.Report.Shown.uniforms_eq {R : ProgramInterface}
    (shown : report.Shown vertex fragment R) (plainVertex : Plain vertex)
    (plainFragment : Plain fragment)
    (analysed : (Analysis.program parse config vertex fragment).outcome = .ok M)
    (lists : report.ListsUniforms M) : R.uniforms.entries = M.uniforms.entries := by
  refine Std.ExtTreeMap.ext_getElem? fun name => ?_
  change R.uniforms.get? name = M.uniforms.get? name
  cases hu : M.uniforms.get? name with
  | none =>
    by_contra kept
    have member : name ∈ R.uniforms.entries :=
      Roster.mem_entries_iff.mpr (Option.isSome_iff_ne_none.mpr kept)
    obtain ⟨v, hv, rfl⟩ := (shown.mem_uniforms_iff name).mp member
    obtain ⟨u, hu', -⟩ := lists.mem_iff.mp hv
    cases hu.symm.trans hu'
  | some u =>
    obtain ⟨declared, type, rfl⟩ :=
      Analysis.get?_uniforms_program plainVertex plainFragment analysed hu
    obtain ⟨type', tag, entry⟩ := shown.lastUniform name _ (lists.lastNamed?_eq hu)
    obtain rfl : type = type' := Option.some.inj ((BaseType.ofTag?_tag _).symm.trans tag)
    rw [stagesOf_eq_declaredIn declared] at entry
    exact entry

/-- **The analysis and reflection agree on plain uniforms.** Where the analysis of two plain texts
gives an interface, and a context accepts them and lists the uniforms of this interface in any
order, reflection is stopped exactly when the slots that are reported cannot be counted. Otherwise
it gives an interface with the same uniforms, and as many slots for them as 32 bits can tell. -/
theorem uniforms_reflect_of_plain (plainVertex : Plain vertex) (plainFragment : Plain fragment)
    (analysed : (Analysis.program parse config vertex fragment).outcome = .ok M)
    (accepts : context.Accepts vertex fragment s report) (lists : report.ListsUniforms M)
    (attributeTypes : ∀ v ∈ report.attributes, (BaseType.ofTag? v.tag).isSome) :
    let result := ((reflect parse overflow context vertex fragment).run s).value.1
    (result = .error .overflow ↔ ¬ report.Fits overflow) ∧
    (report.Fits overflow → ∃ R, result = .ok R ∧ R.uniforms.entries = M.uniforms.entries ∧
      R.uniformSlots = M.uniformSlots % 2 ^ 32) := by
  intro result
  have value : result = (ofReport parse overflow report vertex fragment).value :=
    accepts.value_reflect
  have known := lists.firstUnknown?_eq_none attributeTypes
  refine ⟨value ▸ value_ofReport_eq_overflow_iff known, fun fits => ?_⟩
  obtain ⟨R, made, shown, counted, -⟩ := exists_shown parse vertex fragment known fits
  obtain ⟨v, f, -, -, merged⟩ := Analysis.outcome_program_eq_ok_iff.mp analysed
  have slots : M.uniformSlots = M.uniforms.size := by rw [merged]; rfl
  refine ⟨R, value.trans made,
    shown.uniforms_eq plainVertex plainFragment analysed lists, ?_⟩
  rw [Overflow.eq_mod_of_slots? counted, lists.slots_eq, slots]

/-- A text that declares `a` and then anew of another type. -/
def plainVertexText : String := "uniform vec3 a;\nuniform int a;"

/-- A text that declares `b`, and `a` of a third type. -/
def plainFragmentText : String := "uniform int b;\nuniform vec2 a;"

/-- A context that lists the uniforms of both texts from the last to the first. -/
def plainScript : Scripted.Script where
  report := { uniforms := [⟨"b", 0x1404, 1⟩, ⟨"a", 0x8B50, 1⟩], attributes := [] }

theorem plain_of_all {text : String} (noMacros : Macro.definitions (Comment.blank text.toList) = [])
    (simple : (uniformDeclarations text).all
      fun d => (BaseType.ofToken? d.type).isSome && d.size.isNone) : Plain text where
  noMacros := noMacros
  baseType d hd := ((Bool.and_eq_true _ _).mp (List.all_eq_true.mp simple d hd)).1
  noSize d hd :=
    Option.isNone_iff_eq_none.mp ((Bool.and_eq_true _ _).mp (List.all_eq_true.mp simple d hd)).2

/-- The analysis of two texts gives an interface, and a report lists its uniforms. -/
theorem exists_lists_of_isPerm
    (listed : (Analysis.program parse config vertex fragment).outcome.toOption.any fun M =>
      report.uniforms.isPerm (M.uniforms.entries.toList.map fun (name, u) => reportedAs name u)) :
    ∃ M, (Analysis.program parse config vertex fragment).outcome = .ok M ∧
      report.ListsUniforms M := by
  obtain ⟨M, analysed, lists⟩ := Option.any_eq_true _ _ |>.mp listed
  exact ⟨M, toOption_eq_some_iff.mp analysed, List.isPerm_iff.mp lists⟩

theorem uniforms_reflect_of_plain_conflicting :
    ∃ M R, (Analysis.program Hint.terse {} plainVertexText plainFragmentText).outcome = .ok M ∧
      plainScript.report.ListsUniforms M ∧ plainScript.report.Fits .stops ∧
      ((reflect Hint.terse .stops (Scripted.context plainScript) plainVertexText
        plainFragmentText).run []).value.1 = .ok R ∧
      R.uniforms.entries = M.uniforms.entries ∧ R.uniformSlots = M.uniformSlots % 2 ^ 32 := by
  have vertex : Plain plainVertexText := plain_of_all (by decide +kernel) (by decide +kernel)
  have fragment : Plain plainFragmentText := plain_of_all (by decide +kernel) (by decide +kernel)
  obtain ⟨M, analysed, lists⟩ := @exists_lists_of_isPerm Hint.terse plainScript.report {}
    plainVertexText plainFragmentText (by decide +kernel)
  have accepts := Scripted.accepts plainScript.report plainVertexText plainFragmentText []
  have fits : plainScript.report.Fits .stops := fun _ => by decide +kernel
  obtain ⟨-, agree⟩ := uniforms_reflect_of_plain vertex fragment analysed accepts lists nofun
  obtain ⟨R, made, same⟩ := agree fits
  exact ⟨M, R, analysed, lists, fits, made, same⟩

/-- A context that lists attributes with more slots than 32 bits can tell. -/
def crowdedScript : Scripted.Script where
  report := { uniforms := [], attributes := [⟨"aA", 0x1406, 4294967295⟩, ⟨"aB", 0x1406, 1⟩] }

/-- Reflection does not give the uniforms of the analysis for every report: attributes whose slots
cannot be counted stop it. -/
theorem not_forall_reflect_of_plain :
    ¬ ∀ (parse : Hint.Parser) (overflow : Overflow) (σ Shader Program : Type)
        (context : Context σ Shader Program) (s : σ) (report : Report) (config : Analysis.Config)
        (vertex fragment : String) (M : ProgramInterface),
      Plain vertex → Plain fragment →
      (Analysis.program parse config vertex fragment).outcome = .ok M →
      context.Accepts vertex fragment s report → report.ListsUniforms M →
      (∀ v ∈ report.attributes, (BaseType.ofTag? v.tag).isSome) →
        ∃ R, ((reflect parse overflow context vertex fragment).run s).value.1 = .ok R ∧
          R.uniforms.entries = M.uniforms.entries ∧ R.uniformSlots = M.uniformSlots := by
  intro agree
  have plain : Plain "" := plain_of_all (by decide +kernel) (by decide +kernel)
  obtain ⟨M, analysed, lists⟩ := @exists_lists_of_isPerm Hint.terse crowdedScript.report {} "" ""
    (by decide +kernel)
  have accepts : (Scripted.context crowdedScript).Accepts "" "" [] crowdedScript.report :=
    Scripted.accepts _ "" "" []
  obtain ⟨R, made, -⟩ := agree Hint.terse .stops _ _ _ (Scripted.context crowdedScript) []
    crowdedScript.report {} "" "" M plain plain analysed accepts lists (by decide +kernel)
  have crowded : ¬ crowdedScript.report.Fits .stops := fun fits =>
    absurd (fits rfl).2 (by decide +kernel)
  have stopped := (@value_ofReport_eq_overflow_iff Hint.terse .stops "" "" crowdedScript.report
    (by decide +kernel)).mpr crowded
  cases (accepts.value_reflect.trans stopped).symm.trans made

end Program

end ShaderInterface
