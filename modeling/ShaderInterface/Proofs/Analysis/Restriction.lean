import ShaderInterface.Proofs.Analysis.Program
import ShaderInterface.Proofs.Struct.Expansion

/-!
# Analysis without structs

Where the expansion of structs is turned off, a stage keeps its interface but for the entries of
struct fields, and the hints of the variables that are last declared with a struct type
(`stage_without_structs`).

Both runs read the same declarations. Without structs a declaration says all it said, or nothing
(`UniformReading.withoutStruct`); in both runs the interface holds the last reading of each name.
-/

namespace ShaderInterface.Analysis

open Glsl

/-! ## Last elements -/

section LastOfEach

variable {α β : Type} {key : α → String}

theorem lastOfEach_map (f : β → α) (bs : List β) :
    lastOfEach key (bs.map f) = (lastOfEach (fun b => key (f b)) bs).map f := by
  induction bs with
  | nil => rfl
  | cons b bs ih =>
    have keys : (bs.map f).map key = bs.map fun b => key (f b) := by
      rw [List.map_map]
      rfl
    rw [List.map_cons, lastOfEach, lastOfEach, keys, ih]
    split <;> rfl

theorem nodup_map_lastOfEach (as : List α) : ((lastOfEach key as).map key).Nodup := by
  induction as with
  | nil => exact .nil
  | cons a as ih =>
    rw [lastOfEach]
    split
    · exact ih
    · next last =>
      rw [List.map_cons, List.nodup_cons, mem_map_lastOfEach]
      exact ⟨last, ih⟩

/-- The last element of a key, looked for in both ways. -/
theorem find?_lastOfEach (as : List α) (k : String) :
    (lastOfEach key as).find? (fun a => key a = k) = (as.filter fun a => key a = k).getLast? := by
  induction as with
  | nil => rfl
  | cons a as ih =>
    rw [lastOfEach]
    by_cases same : key a = k
    · rw [List.filter_cons_of_pos (by simpa using same), List.getLast?_cons, ← ih]
      split
      · next later =>
        obtain ⟨b, hb, eq⟩ := List.mem_map.mp (mem_map_lastOfEach.mpr later)
        have found : ((lastOfEach key as).find? fun a => key a = k).isSome :=
          List.find?_isSome.mpr ⟨b, hb, by simp [eq, same]⟩
        obtain ⟨c, hc⟩ := Option.isSome_iff_exists.mp found
        rw [hc]
        rfl
      · next last =>
        have none : (lastOfEach key as).find? (fun a => key a = k) = none := by
          refine List.find?_eq_none.mpr fun b hb eq => last ?_
          rw [same, ← of_decide_eq_true eq]
          exact mem_map_lastOfEach.mp (List.mem_map_of_mem hb)
        rw [none, List.find?_cons_of_pos (by simpa using same)]
        rfl
    · rw [List.filter_cons_of_neg (by simpa using same), ← ih]
      split
      · rfl
      · exact List.find?_cons_of_neg (by simpa using same)

end LastOfEach

/-! ## Readings without structs -/

section Reading

variable {scope : Scope} {d : Declaration} {r : UniformReading}

/-- What is said by a declaration of the given type where structs are not expanded. -/
def UniformReading.withoutStruct (type : String) (r : UniformReading) : UniformReading :=
  if (BaseType.ofToken? type).isSome then r else { name := r.name, entries := [], hint := none }

theorem UniformReading.name_withoutStruct (type : String) (r : UniformReading) :
    (r.withoutStruct type).name = r.name := by
  unfold withoutStruct
  split <;> rfl

theorem UniformReading.hint_withoutStruct (type : String) (r : UniformReading) :
    (r.withoutStruct type).hint = r.hint.filter fun _ => (BaseType.ofToken? type).isSome := by
  unfold withoutStruct
  split
  · next base => cases r.hint <;> simp [base, Option.filter_some]
  · next struct => cases r.hint <;> simp [struct]

/-- What a declaration says with structs tells what it says without them. -/
theorem Reads.outcome_withoutStruct (h : Reads scope d r) :
    (uniformReading { scope with expandStructs := false } d).outcome =
      .ok (r.withoutStruct d.type) := by
  unfold UniformReading.withoutStruct
  split
  · next base =>
    refine (outcome_uniformReading_eq_ok_iff_of_not_passes fun passes => ?_).mpr
      ⟨h.name, h.entries, h.hint⟩
    rw [passes.1] at base
    cases base
  · next struct =>
    rw [h.name]
    exact outcome_uniformReading_of_passes ⟨Option.not_isSome_iff_eq_none.mp struct, rfl⟩

/-- The entries of a reading are kept or passed over by their kind. -/
theorem Reads.entries_withoutStruct (h : Reads scope d r) :
    (r.withoutStruct d.type).entries = r.entries.filter fun u => !u.isField := by
  obtain ⟨length, -, expanded⟩ := h.entries
  have kind := Struct.isField_of_mem_expand expanded
  unfold UniformReading.withoutStruct
  split
  · next base =>
    refine (List.filter_eq_self.mpr fun u hu => ?_).symm
    simp [kind u hu, Option.isNone_eq_false_iff.mpr base]
  · next struct =>
    refine (List.filter_eq_nil_iff.mpr fun u hu => ?_).symm
    simp [kind u hu, Option.not_isSome_iff_eq_none.mp struct]

end Reading

/-! ## Two interfaces -/

/-- Taking in declarations decides on the uniforms and the hints alone. -/
theorem exists_foldl_declareUniform_eq (rs : List UniformReading) (i : StageInterface) :
    ∃ uniforms hints, rs.foldl declareUniform i = { i with uniforms, hints } := by
  induction rs generalizing i with
  | nil => exact ⟨i.uniforms, i.hints, rfl⟩
  | cons r rs ih =>
    obtain ⟨uniforms, hints, eq⟩ : ∃ uniforms hints, declareUniform i r =
        { i with uniforms, hints } := by
      rw [declareUniform, foldl_insertUniform]
      cases r.hint <;> exact ⟨_, _, rfl⟩
    rw [List.foldl_cons, eq]
    exact ih _

theorem exists_assemble_eq (which : Stage) (text : String) (rs : List UniformReading)
    (as : List Attribute) :
    ∃ uniforms hints, assemble which text rs as =
      { stage := which, source := text, uniforms, hints,
        attributes := as.foldl (fun r a => r.insert a.name a) {} } := by
  obtain ⟨uniforms, hints, eq⟩ :=
    exists_foldl_declareUniform_eq rs { stage := which, source := text }
  rw [assemble, eq, foldl_insertAttribute]
  exact ⟨uniforms, hints, rfl⟩

theorem UniformReading.Proper.withoutStruct {r : UniformReading} (h : r.Proper) (type : String) :
    (r.withoutStruct type).Proper := by
  unfold UniformReading.withoutStruct
  split
  · exact h
  · exact ⟨h.ident, by simp⟩

/-- Declarations of different names, each with what it says. -/
structure Said (scope : Scope) (qs : List (Declaration × UniformReading)) : Prop where
  reads : ∀ q ∈ qs, Reads scope q.1 q.2
  proper : ∀ q ∈ qs, q.2.Proper
  nodup : (qs.map (·.2.name)).Nodup

/-- The readings where structs are not expanded. -/
def withoutStructs (qs : List (Declaration × UniformReading)) : List UniformReading :=
  qs.map fun q => q.2.withoutStruct q.1.type

section Said

variable {scope : Scope} {qs : List (Declaration × UniformReading)}

theorem flatMap_entries_withoutStructs (said : Said scope qs) :
    (withoutStructs qs).flatMap (·.entries) =
      ((qs.map (·.2)).flatMap (·.entries)).filter fun u => !u.isField := by
  rw [withoutStructs, List.flatMap_map, List.flatMap_map, List.filter_flatMap]
  exact List.flatMap_congr fun q hq => (said.reads q hq).entries_withoutStruct

/-- The type of a declaration tells the kind of every entry that has a name of its reading. -/
theorem Said.isField_of_name_eq (said : Said scope qs) {q : Declaration × UniformReading}
    (hq : q ∈ qs) {u v : Uniform} (hu : u ∈ q.2.entries)
    (hv : v ∈ (qs.map (·.2)).flatMap (·.entries)) (same : v.name = u.name) :
    v.isField = (BaseType.ofToken? q.1.type).isNone := by
  obtain ⟨r, hr, hv⟩ := List.mem_flatMap.mp hv
  obtain ⟨q', hq', rfl⟩ := List.mem_map.mp hr
  -- the entry stands for both names, so it is of the same reading
  have stands := (said.proper q' hq').standsFor v hv
  rw [same] at stands
  have name := eq_of_standsFor (said.proper q' hq').ident (said.proper q hq).ident stands
    ((said.proper q hq).standsFor u hu)
  obtain rfl := List.inj_on_of_nodup_map said.nodup hq' hq name
  obtain ⟨length, -, expanded⟩ := (said.reads q' hq').entries
  exact Struct.isField_of_mem_expand expanded v hv

/-- Where the entries of one name are all kept or all passed over, so is the last of them. -/
theorem getLast?_filter_of_alike {us : List Uniform} {p : Uniform → Bool}
    (alike : ∀ u ∈ us, ∀ v ∈ us, u.name = v.name → p u = p v) (name : String) :
    ((us.filter p).filter fun u => u.name = name).getLast? =
      (us.filter fun u => u.name = name).getLast?.filter p := by
  rw [List.filter_comm]
  cases last : (us.filter fun u => u.name = name).getLast? with
  | none =>
    rw [List.getLast?_eq_none_iff.mp last]
    rfl
  | some u =>
    have hu := List.mem_filter.mp (List.mem_of_getLast? last)
    have all : ∀ v ∈ us.filter (fun u => u.name = name), p v = p u := by
      intro v hv
      have hv := List.mem_filter.mp hv
      exact alike v hv.1 u hu.1 (by simp_all)
    cases keep : p u with
    | true =>
      rw [List.filter_eq_self.mpr fun v hv => (all v hv).trans keep, last, Option.filter_some,
        if_pos keep]
    | false =>
      rw [List.filter_eq_nil_iff.mpr fun v hv => by simp [all v hv, keep], Option.filter_some,
        if_neg (by simp [keep])]
      rfl

end Said

/-- The last of the declarations of a name is of a base type. -/
def lastOfBaseType (ds : List Declaration) (name : String) : Bool :=
  (ds.filter fun d => d.name = name).getLast?.any fun d => (BaseType.ofToken? d.type).isSome

/-- The interface `j` is `i` without its struct entries: the other uniforms stay in their order, the
hints are those of variables last declared with a base type, and everything else is the same. -/
structure WithoutStructs (ds : List Declaration) (i j : StageInterface) : Prop where
  stage : j.stage = i.stage
  source : j.source = i.source
  entries : j.uniforms.entries = i.uniforms.entries.filter fun _ u => !u.isField
  order : j.uniforms.order =
    i.uniforms.order.filter fun name => (i.uniforms.get? name).any fun u => !u.isField
  hints : j.hints = i.hints.filter fun name _ => lastOfBaseType ds name
  attributes : j.attributes = i.attributes

/-- A stage holds the last reading of each name. -/
theorem holds_assemble (which : Stage) (text : String) (as : List Attribute)
    {rs : List UniformReading} (proper : ∀ r ∈ rs, r.Proper) :
    Holds (assemble which text rs as) (lastOfEach (·.name) rs) :=
  (holds_foldl_declareUniform (holds_empty which text) proper).foldl_insertAttribute as

section Holds

variable {scope : Scope} {ps qs : List (Declaration × UniformReading)} {i j : StageInterface}

theorem entries_of_holds (said : Said scope qs) (hi : Holds i (qs.map (·.2)))
    (hj : Holds j (withoutStructs qs)) :
    j.uniforms.entries = i.uniforms.entries.filter fun _ u => !u.isField := by
  have alike : ∀ u ∈ (qs.map (·.2)).flatMap (·.entries),
      ∀ v ∈ (qs.map (·.2)).flatMap (·.entries), u.name = v.name →
        (!u.isField) = !v.isField := by
    intro u hu v hv same
    obtain ⟨r, hr, hvr⟩ := List.mem_flatMap.mp hv
    obtain ⟨q, hq, rfl⟩ := List.mem_map.mp hr
    rw [said.isField_of_name_eq hq hvr hu same, said.isField_of_name_eq hq hvr hv rfl]
  refine Std.ExtTreeMap.ext_getElem? fun name => ?_
  rw [Std.ExtTreeMap.getElem?_filter']
  refine (hj.uniforms name).trans ?_
  rw [flatMap_entries_withoutStructs said, getLast?_filter_of_alike alike, ← hi.uniforms]
  rfl

theorem order_of_holds (said : Said scope qs) (hi : Holds i (qs.map (·.2)))
    (hj : Holds j (withoutStructs qs)) :
    j.uniforms.order =
      i.uniforms.order.filter fun name => (i.uniforms.get? name).any fun u => !u.isField := by
  have kept : ∀ q ∈ qs, ∀ u ∈ q.2.entries,
      ((i.uniforms.get? u.name).any fun u => !u.isField) = (BaseType.ofToken? q.1.type).isSome := by
    intro q hq u hu
    have member : u ∈ (qs.map (·.2)).flatMap (·.entries) :=
      List.mem_flatMap.mpr ⟨q.2, List.mem_map_of_mem hq, hu⟩
    have named : u ∈ ((qs.map (·.2)).flatMap (·.entries)).filter fun v => v.name = u.name :=
      List.mem_filter.mpr ⟨member, by simp⟩
    have last := List.getLast?_eq_some_getLast (List.ne_nil_of_mem named)
    have hv := List.mem_filter.mp (List.mem_of_getLast? last)
    rw [hi.uniforms, last, Option.any_some,
      said.isField_of_name_eq hq hu hv.1 (of_decide_eq_true hv.2), Option.not_isNone]
  rw [hi.order, hj.order, withoutStructs, List.flatMap_map, List.flatMap_map, List.filter_flatMap]
  refine List.flatMap_congr fun q hq => ?_
  have names : ∀ name ∈ (q.2.entries.map (·.name)).eraseDups,
      ((i.uniforms.get? name).any fun u => !u.isField) =
        (BaseType.ofToken? q.1.type).isSome := by
    intro name hn
    obtain ⟨u, hu, rfl⟩ := List.mem_map.mp (List.mem_eraseDups.mp hn)
    exact kept q hq u hu
  unfold UniformReading.withoutStruct
  split
  · next base => exact (List.filter_eq_self.mpr fun name hn => (names name hn).trans base).symm
  · next struct => exact (List.filter_eq_nil_iff.mpr fun name hn => by
      rw [names name hn]
      exact struct).symm

/-- The hint of a name is the one that its last declaration gives. -/
theorem find?_map_lastOfEach (f : Declaration × UniformReading → UniformReading)
    (named : ∀ q, (f q).name = q.2.name) (name : String) :
    ((lastOfEach (·.2.name) ps).map f).find? (fun r => r.name = name) =
      (ps.filter fun q => q.2.name = name).getLast?.map f := by
  rw [List.find?_map, ← find?_lastOfEach]
  simp only [Function.comp_def, named]

theorem hints_of_holds (reads : ∀ p ∈ ps, Reads scope p.1 p.2)
    (hi : Holds i ((lastOfEach (·.2.name) ps).map (·.2)))
    (hj : Holds j (withoutStructs (lastOfEach (·.2.name) ps))) :
    j.hints = i.hints.filter fun name _ => lastOfBaseType (ps.map (·.1)) name := by
  refine Std.ExtTreeMap.ext_getElem? fun name => ?_
  have last : lastOfBaseType (ps.map (·.1)) name =
      (ps.filter fun q => q.2.name = name).getLast?.any fun q =>
        (BaseType.ofToken? q.1.type).isSome := by
    have same : ps.filter (fun q => q.1.name = name) = ps.filter fun q => q.2.name = name :=
      List.filter_congr fun q hq => by rw [(reads q hq).name]
    rw [lastOfBaseType, List.filter_map, List.getLast?_map, Option.any_map, ← same]
    rfl
  rw [Std.ExtTreeMap.getElem?_filter', hi.hints, hj.hints, withoutStructs,
    find?_map_lastOfEach _ (fun _ => rfl),
    find?_map_lastOfEach _ (fun q => q.2.name_withoutStruct q.1.type), last]
  cases (ps.filter fun q => q.2.name = name).getLast? with
  | none => rfl
  | some q =>
    rw [Option.map_some, Option.map_some, Option.bind_some, Option.bind_some, Option.any_some,
      UniformReading.hint_withoutStruct]

/-- The two interfaces hold the last reading of each name, with and without structs. -/
theorem withoutStructs_assemble (which : Stage) (text : String) (as : List Attribute)
    (reads : ∀ p ∈ ps, Reads scope p.1 p.2) (proper : ∀ p ∈ ps, p.2.Proper) :
    WithoutStructs (ps.map (·.1)) (assemble which text (ps.map (·.2)) as)
      (assemble which text (withoutStructs ps) as) := by
  have last : Said scope (lastOfEach (·.2.name) ps) :=
    ⟨fun p hp => reads p (mem_of_mem_lastOfEach hp),
      fun p hp => proper p (mem_of_mem_lastOfEach hp), nodup_map_lastOfEach ps⟩
  have on : Holds (assemble which text (ps.map (·.2)) as)
      ((lastOfEach (·.2.name) ps).map (·.2)) := by
    rw [← lastOfEach_map]
    exact holds_assemble which text as (List.forall_mem_map.mpr proper)
  have off : Holds (assemble which text (withoutStructs ps) as)
      (withoutStructs (lastOfEach (·.2.name) ps)) := by
    have keys := @lastOfEach_map _ _ UniformReading.name
      (fun q : Declaration × UniformReading => q.2.withoutStruct q.1.type) ps
    simp only [UniformReading.name_withoutStruct] at keys
    rw [withoutStructs, withoutStructs, ← keys]
    exact holds_assemble which text as
      (List.forall_mem_map.mpr fun p hp => (proper p hp).withoutStruct p.1.type)
  have entries := entries_of_holds last on off
  have order := order_of_holds last on off
  have hints := hints_of_holds reads on off
  obtain ⟨_, _, eq⟩ := exists_assemble_eq which text (ps.map (·.2)) as
  obtain ⟨_, _, eq'⟩ := exists_assemble_eq which text (withoutStructs ps) as
  exact ⟨by rw [eq, eq'], by rw [eq, eq'], entries, order, hints, by rw [eq, eq']⟩

end Holds

variable {parse : Hint.Parser} {config : Config} {which : Stage} {text : String}
  {i : StageInterface}

theorem declarations_withoutStructs (macros : Macro.Table) (keyword : Keyword) :
    Config.declarations { config with expandStructs := false } macros text keyword =
      config.declarations macros text keyword := rfl

theorem scope_withoutStructs (macros : Macro.Table) :
    Config.scope { config with expandStructs := false } parse macros which text =
      { config.scope parse macros which text with expandStructs := false } := rfl

/-- **Turning the expansion of structs off only takes struct entries out.** Where a stage has an
interface with structs, it has one without them, and the two differ in the entries of struct fields
and in the hints of the variables last declared with a struct type. -/
theorem stage_without_structs (expands : config.expandStructs = true)
    (analysed : (stage parse config which text).outcome = .ok i) :
    ∃ macros j,
      (Macro.Table.ofText (Comment.blank text.toList) config.macroPasses).outcome = .ok macros ∧
      (stage parse { config with expandStructs := false } which text).outcome = .ok j ∧
      WithoutStructs (config.declarations macros text .uniform) i j := by
  obtain ⟨macros, resolved⟩ := exists_macros_of_stage analysed
  obtain ⟨rs, as, hrs, has, rfl⟩ := (outcome_stage_eq_ok_iff resolved).mp analysed
  have reads : List.Forall₂ (Reads (config.scope parse macros which text))
      (config.declarations macros text .uniform) rs :=
    hrs.imp fun _ _ => (outcome_uniformReading_eq_ok_iff expands).mp
  obtain ⟨ps, hds, rfl, said⟩ := exists_pairs_of_forall₂ reads
  refine ⟨macros, assemble which text (withoutStructs ps) as, resolved, ?_, ?_⟩
  · refine (@outcome_stage_eq_ok_iff _ _ { config with expandStructs := false } _ _ _ resolved).mpr
      ⟨withoutStructs ps, as, ?_, ?_, rfl⟩
    · rw [declarations_withoutStructs, scope_withoutStructs, hds, withoutStructs,
        List.forall₂_map_left_iff, List.forall₂_map_right_iff, List.forall₂_same]
      exact fun p hp => (said p hp).outcome_withoutStruct
    · rw [declarations_withoutStructs, scope_withoutStructs]
      exact has
  · rw [hds]
    exact withoutStructs_assemble which text as said fun p hp =>
      (said p hp).proper (hds ▸ List.mem_map_of_mem hp)

/-- Two variables, of which the one is declared anew with a base type, the other with a struct. -/
def exchanged : String :=
  "struct L \x7b vec3 c; \x7d;\nuniform L a;\nuniform int b; // \x7bn: 1\x7d\n" ++
    "uniform int a; // \x7bn: 2\x7d\nuniform L b;"

theorem stage_without_structs_exchanged :
    ∃ i macros j, (stage Hint.terse {} .fragment exchanged).outcome = .ok i ∧
      i.uniforms.order = ["a", "b.c"] ∧
      (Macro.Table.ofText (Comment.blank exchanged.toList) 64).outcome = .ok macros ∧
      (stage Hint.terse { expandStructs := false } .fragment exchanged).outcome = .ok j ∧
      WithoutStructs (Config.declarations {} macros exchanged .uniform) i j := by
  have order : (stage Hint.terse {} .fragment exchanged).outcome.toOption.map (·.uniforms.order) =
      some ["a", "b.c"] := by decide +kernel
  obtain ⟨i, hi, ho⟩ := Option.map_eq_some_iff.mp order
  have hi := toOption_eq_some_iff.mp hi
  obtain ⟨macros, j, resolved, hj, without⟩ :=
    @stage_without_structs Hint.terse {} .fragment exchanged i rfl hi
  exact ⟨i, macros, j, hi, ho, resolved, hj, without⟩

end ShaderInterface.Analysis
