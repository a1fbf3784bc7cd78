import Mathlib.Algebra.GroupWithZero.Nat
import ShaderInterface.Proofs.Interface.Integrity
import ShaderInterface.Proofs.Interface.Merge

/-!
# The entries that reflection makes

Of a report whose types are known reflection makes the interface that mirrors it
(`Report.Mirrored`): the reported names and no others, each with the type and the size of the last
variable of that name. The two stages of a reported uniform are found in the texts, by the declared
name with which the reported name begins (`stagesOf`), and the merged entry stands in both again
where both stages have one. Otherwise the first unknown type is the failure (`reflect_of_accepts`).
Slots that cannot be summed up with 32 bits leave the entries as they are (`exists_shown`), unless
they stop the program.
-/

namespace ShaderInterface.Reflection

open Glsl
open Analysis (uniformDeclarations)

/-! ## Where a reported uniform is declared -/

/-- The text declares the uniform to which a reported name belongs. -/
def declaresBase (text name : String) : Bool :=
  (uniformDeclarations text).any fun d => d.name = baseName name

/-- A reported uniform is taken to be in a stage whose text declares it, and in both stages where
neither text does. -/
def takes (text other name : String) : Bool := declaresBase text name || !declaresBase other name

/-- The stages of a reported uniform. -/
def stagesOf (vertex fragment name : String) : StageSet where
  vertex := takes vertex fragment name
  fragment := takes fragment vertex name

/-- Every reported uniform is in a stage. -/
theorem takes_of_not_takes {text other name : String} (h : takes text other name = false) :
    takes other text name = true := by
  unfold takes at *
  cases declaresBase text name <;> simp_all

variable {parse : Hint.Parser} {overflow : Overflow} {report : Report}
  {vertex fragment text other name : String} {v : ActiveVariable}

theorem names_foldl_declare (pairs : List (Declaration × Option Hint.Fields)) (said : Declared) :
    (pairs.foldl (fun said (d, fields) => said.declare d fields) said).names =
      (pairs.map (·.1.name)).reverse ++ said.names := by
  induction pairs generalizing said with
  | nil => rfl
  | cons pair pairs ih =>
    rw [List.foldl_cons, ih, List.map_cons, List.reverse_cons, List.append_assoc]
    rfl

/-- Looking for some names only finds the declarations of these. -/
theorem scan_eq_filter (s written : List Char) (keyword : Keyword) (keep : String → Bool) :
    Declaration.scan s written keyword keep =
      (Declaration.scan s written keyword).filter fun d => keep d.name := by
  rw [Declaration.scan, Declaration.scan, List.filter_true]

/-- A text is found to declare the names of its declarations that are active. -/
theorem mem_names_said :
    name ∈ (report.said parse text).names ↔
      (∃ d ∈ uniformDeclarations text, d.name = name) ∧
        name ∈ report.uniforms.map ActiveVariable.declaredName := by
  rw [Report.said, Declared.ofText, Declaration.scanned, scan_eq_filter, ← uniformDeclarations]
  simp only [Logged.value_bind, Logged.value_pure, Logged.value_mapM, names_foldl_declare]
  rw [← List.map_prod_left_eq_zip, List.map_map, List.append_nil, List.mem_reverse, List.mem_map]
  simp only [List.mem_filter, decide_eq_true_iff, Function.comp_apply]
  constructor
  · rintro ⟨d, ⟨hd, active⟩, rfl⟩
    exact ⟨⟨d, hd, rfl⟩, active⟩
  · rintro ⟨⟨d, hd, rfl⟩, active⟩
    exact ⟨d, ⟨hd, active⟩, rfl⟩

theorem declares_said (h : v ∈ report.uniforms) :
    (report.said parse text).declares v.declaredName = declaresBase text v.name := by
  have active : v.declaredName ∈ report.uniforms.map ActiveVariable.declaredName :=
    List.mem_map_of_mem h
  rw [Declared.declares, declaresBase, Bool.eq_iff_iff, decide_eq_true_iff, mem_names_said,
    and_iff_left active]
  simp [ActiveVariable.declaredName]

/-- Whether a uniform is in a stage is a matter of its name. -/
theorem inStage_said (h : v ∈ report.uniforms) :
    inStage (report.said parse text) (report.said parse other) v = takes text other v.name := by
  rw [inStage, declares_said h, declares_said h, takes]

/-! ## The entries of a stage -/

/-- The uniform entry that a variable makes in some stages. A size above one makes an array. -/
def mirror (v : ActiveVariable) (type : BaseType) (stages : StageSet) : Uniform where
  name := v.name
  type := type
  count := if 1 < v.size then v.size else 0
  index := 0
  kind := if 1 < v.size then .element else .plain
  stages := stages

theorem uniformEntry_eq_mirror (v : ActiveVariable) (type : BaseType) (stage : Stage) :
    uniformEntry v type stage = mirror v type (.single stage) := by
  unfold uniformEntry mirror
  split <;> rfl

theorem Typed.map_fst {active : List ActiveVariable} {typed : List (ActiveVariable × BaseType)}
    (h : Typed active typed) : typed.map Prod.fst = active := by
  induction h with
  | nil => rfl
  | cons ht _ ih => rw [List.map_cons, ih, ht.1]

theorem Typed.ofTag? {active : List ActiveVariable} {typed : List (ActiveVariable × BaseType)}
    (h : Typed active typed) {t : ActiveVariable × BaseType} (ht : t ∈ typed) :
    BaseType.ofTag? t.1.tag = some t.2 := by
  obtain ⟨v, -, rfl, hv⟩ := mem_right_of_forall₂ h ht
  exact hv

/-- The uniforms of a list that are in a stage. -/
def takenBy (text other : String) (us : List (ActiveVariable × BaseType)) :
    List (ActiveVariable × BaseType) := us.filter fun u => takes text other u.1.name

variable {us as : List (ActiveVariable × BaseType)}

/-- A stage is its text with the hints in it and the uniforms that came in one after the other. -/
theorem stageInterface_eq (stage : Stage) (text : String) (said other : Declared)
    (us : List (ActiveVariable × BaseType)) :
    stageInterface stage text said other us =
      { stage, source := text, hints := said.hints
        uniforms := ((us.filter fun u => inStage said other u.1).map fun u =>
          uniformEntry u.1 u.2 stage).foldl (fun r u => r.insert u.name u) {} } := by
  have inserted := Analysis.foldl_insertUniform
    ((us.filter fun u => inStage said other u.1).map fun u => uniformEntry u.1 u.2 stage)
    { stage, source := text, hints := said.hints }
  rwa [List.foldl_map] at inserted

/-- The vertex stage has the attributes besides. -/
theorem Report.vertexStage_eq (report : Report) (parse : Hint.Parser) (vertex fragment : String)
    (us as : List (ActiveVariable × BaseType)) :
    report.vertexStage parse vertex fragment us as =
      { stageInterface .vertex vertex (report.said parse vertex) (report.said parse fragment)
          us with
        attributes := (as.map fun a => attributeEntry a.1 a.2).foldl
          (fun r a => r.insert a.name a) {} } := by
  have inserted := Analysis.foldl_insertAttribute (as.map fun a => attributeEntry a.1 a.2)
    (stageInterface .vertex vertex (report.said parse vertex) (report.said parse fragment) us)
  rw [List.foldl_map] at inserted
  rw [Report.vertexStage, inserted, stageInterface_eq]

theorem uniforms_stageInterface (hus : Typed report.uniforms us) (stage : Stage)
    (text other : String) :
    (stageInterface stage text (report.said parse text) (report.said parse other) us).uniforms =
      ((takenBy text other us).map fun u => mirror u.1 u.2 (.single stage)).foldl
        (fun r u => r.insert u.name u) {} := by
  have taken : us.filter (fun u => inStage (report.said parse text) (report.said parse other) u.1) =
      takenBy text other us :=
    List.filter_congr fun u hu => inStage_said (hus.map_fst ▸ List.mem_map_of_mem hu)
  rw [stageInterface_eq, taken]
  simp only [uniformEntry_eq_mirror]

/-- The last variable of a name. -/
def lastNamed? (active : List ActiveVariable) (name : String) : Option ActiveVariable :=
  (active.filter fun v => v.name = name).getLast?

/-- The last variable of a name, with its base type. -/
def lastTyped? (us : List (ActiveVariable × BaseType)) (name : String) :
    Option (ActiveVariable × BaseType) :=
  (us.filter fun u => u.1.name = name).getLast?

/-- The last variable of a name is there when the name is reported. -/
theorem isSome_lastNamed?_iff {active : List ActiveVariable} :
    (lastNamed? active name).isSome ↔ ∃ v ∈ active, v.name = name := by
  rw [lastNamed?, List.getLast?_isSome, ne_eq, List.filter_eq_nil_iff]
  simp

theorem Typed.lastTyped?_eq {active : List ActiveVariable} (h : Typed active us)
    (last : lastNamed? active name = some v) :
    ∃ type, BaseType.ofTag? v.tag = some type ∧ lastTyped? us name = some (v, type) := by
  rw [← h.map_fst, lastNamed?, List.filter_map, List.getLast?_map, Option.map_eq_some_iff] at last
  obtain ⟨⟨v, type⟩, hu, rfl⟩ := last
  have member := List.mem_of_getLast? hu
  exact ⟨type, h.ofTag? (List.mem_of_mem_filter member), hu⟩

theorem Typed.isSome_lastTyped?_iff {active : List ActiveVariable} (h : Typed active us) :
    (lastTyped? us name).isSome ↔ ∃ v ∈ active, v.name = name := by
  rw [← isSome_lastNamed?_iff, ← h.map_fst, lastNamed?, List.filter_map, List.getLast?_map,
    Option.isSome_map, lastTyped?]
  rfl

/-- A stage has all variables of a name or none of them. -/
theorem filter_takenBy (text other name : String) (us : List (ActiveVariable × BaseType)) :
    (takenBy text other us).filter (fun u => u.1.name = name) =
      if takes text other name then us.filter (fun u => u.1.name = name) else [] := by
  rw [takenBy, List.filter_filter]
  split
  · next h =>
    refine List.filter_congr fun u _ => ?_
    by_cases hu : u.1.name = name <;> simp [hu, h]
  · next h =>
    refine List.filter_eq_nil_iff.mpr fun u _ => ?_
    by_cases hu : u.1.name = name <;> simp [hu, h]

/-- A stage has the last variable of each name that is in it. -/
theorem get?_uniforms_stageInterface (hus : Typed report.uniforms us) (stage : Stage)
    (text other name : String) :
    (stageInterface stage text (report.said parse text) (report.said parse other)
        us).uniforms.get? name =
      if takes text other name then
        (lastTyped? us name).map fun u => mirror u.1 u.2 (.single stage)
      else none := by
  have filtered : ((takenBy text other us).map fun u => mirror u.1 u.2 (.single stage)).filter
      (fun u => u.name = name) =
        ((takenBy text other us).filter fun u => u.1.name = name).map fun u =>
          mirror u.1 u.2 (.single stage) := List.filter_map
  rw [uniforms_stageInterface hus, Roster.get?_foldl_insert_empty, filtered, List.getLast?_map,
    filter_takenBy]
  split <;> rfl

/-- The uniforms of a stage stand in the order in which their names came first. -/
theorem order_uniforms_stageInterface (hus : Typed report.uniforms us) (stage : Stage)
    (text other : String) :
    (stageInterface stage text (report.said parse text) (report.said parse other)
        us).uniforms.order =
      ((report.uniforms.map (·.name)).filter (takes text other)).eraseDups := by
  rw [uniforms_stageInterface hus, Roster.order_foldl_insert_empty, List.map_map, ← hus.map_fst,
    List.map_map, List.filter_map]
  rfl

/-! ## The merged entries -/

/-- The elements that are kept come first in the order in which all of them do. -/
theorem eraseDups_filter {α : Type} [BEq α] [LawfulBEq α] (p : α → Bool) (l : List α) :
    (l.filter p).eraseDups = l.eraseDups.filter p := by
  induction h : l.length using Nat.strong_induction_on generalizing l with
  | _ n ih =>
    subst h
    cases l with
    | nil => rfl
    | cons a l =>
      have shorter : (l.filter fun b => !b == a).length < (a :: l).length :=
        Nat.lt_succ_of_le (List.length_filter_le _ _)
      rw [List.eraseDups_cons]
      by_cases ha : p a
      · rw [List.filter_cons_of_pos ha, List.filter_cons_of_pos ha, List.eraseDups_cons,
          ← ih _ shorter _ rfl, List.filter_filter, List.filter_filter]
        simp only [Bool.and_comm]
      · rw [List.filter_cons_of_neg ha, List.filter_cons_of_neg ha, ← ih _ shorter _ rfl,
          List.filter_filter]
        -- the name that is not kept is not among those that are
        refine congrArg List.eraseDups (List.filter_congr fun b _ => ?_)
        by_cases hb : b = a
        · simp [hb, ha]
        · simp [hb]

theorem uniforms_vertexStage (report : Report) (parse : Hint.Parser) (vertex fragment : String)
    (us as : List (ActiveVariable × BaseType)) :
    (report.vertexStage parse vertex fragment us as).uniforms =
      (stageInterface .vertex vertex (report.said parse vertex) (report.said parse fragment)
        us).uniforms := by
  rw [Report.vertexStage_eq]

/-- A reported uniform is merged from the stages that have it. -/
theorem get?_uniforms_merged (hus : Typed report.uniforms us) (name : String) :
    (report.merged parse vertex fragment us as).uniforms.get? name =
      (lastTyped? us name).map fun u => mirror u.1 u.2 (stagesOf vertex fragment name) := by
  have fragmentStage : (report.fragmentStage parse vertex fragment us).Coherent :=
    coherent_stageInterface .fragment fragment _ _ us
  refine (Roster.getElem?_entries_merge fragmentStage.uniforms _ name).trans ?_
  change Option.merge Uniform.merge (Roster.get? _ name) (Roster.get? _ name) = _
  rw [uniforms_vertexStage, get?_uniforms_stageInterface hus, Report.fragmentStage,
    get?_uniforms_stageInterface hus, stagesOf]
  cases inVertex : takes vertex fragment name with
  | false =>
    rw [takes_of_not_takes inVertex]
    cases lastTyped? us name <;> rfl
  | true =>
    cases takes fragment vertex name <;> cases lastTyped? us name <;> rfl

theorem takes_iff_mem_vertexStage (hus : Typed report.uniforms us)
    (reported : name ∈ report.uniforms.map (·.name)) :
    name ∈ (report.vertexStage parse vertex fragment us as).uniforms.entries ↔
      takes vertex fragment name := by
  have last : (lastTyped? us name).isSome := by
    rw [hus.isSome_lastTyped?_iff]
    simpa using reported
  rw [Roster.mem_entries_iff, uniforms_vertexStage, get?_uniforms_stageInterface hus]
  split
  · next h => simpa [h] using last
  · next h => simp [h]

/-- The merged uniforms stand in the order in which they are reported, those of the vertex stage
first. -/
theorem order_uniforms_merged (hus : Typed report.uniforms us) :
    (report.merged parse vertex fragment us as).uniforms.order =
      (report.uniforms.map (·.name)).eraseDups.filter (takes vertex fragment) ++
        (report.uniforms.map (·.name)).eraseDups.filter fun name =>
          !takes vertex fragment name := by
  have fragmentStage : (report.fragmentStage parse vertex fragment us).Coherent :=
    coherent_stageInterface .fragment fragment _ _ us
  refine (Roster.order_merge fragmentStage.uniforms _).trans ?_
  rw [Report.fragmentStage, order_uniforms_stageInterface hus, eraseDups_filter,
    uniforms_vertexStage, order_uniforms_stageInterface hus, eraseDups_filter,
    ← uniforms_vertexStage report parse vertex fragment us as, List.filter_filter]
  refine congrArg (_ ++ ·) (List.filter_congr fun name hname => ?_)
  have reported := List.mem_eraseDups.mp hname
  have member : decide (name ∈ (report.vertexStage parse vertex fragment us as).uniforms.entries) =
      takes vertex fragment name := by
    rw [Bool.eq_iff_iff, decide_eq_true_iff, takes_iff_mem_vertexStage hus reported]
  rw [decide_not, member]
  cases inVertex : takes vertex fragment name with
  | false => simp [takes_of_not_takes inVertex]
  | true => simp

/-- Only the vertex stage has attributes, and they come in one after the other. -/
theorem attributes_merged (report : Report) (parse : Hint.Parser) (vertex fragment : String)
    (us as : List (ActiveVariable × BaseType)) :
    (report.merged parse vertex fragment us as).attributes =
      (as.map fun a => attributeEntry a.1 a.2).foldl (fun r a => r.insert a.name a) {} := by
  change Roster.merge _ _ _ = _
  rw [Report.vertexStage_eq, Report.fragmentStage, stageInterface_eq .fragment]
  rfl

theorem get?_attributes_merged (name : String) :
    (report.merged parse vertex fragment us as).attributes.get? name =
      (lastTyped? as name).map fun a => attributeEntry a.1 a.2 := by
  rw [attributes_merged, Roster.get?_foldl_insert_empty, List.filter_map, List.getLast?_map]
  rfl

/-- The attributes stand in the order in which their names are reported first. -/
theorem order_attributes_merged (has : Typed report.attributes as) :
    (report.merged parse vertex fragment us as).attributes.order =
      (report.attributes.map (·.name)).eraseDups := by
  rw [attributes_merged, Roster.order_foldl_insert_empty, List.map_map, ← has.map_fst, List.map_map]
  rfl

theorem vertexSource_merged (report : Report) (parse : Hint.Parser) (vertex fragment : String)
    (us as : List (ActiveVariable × BaseType)) :
    (report.merged parse vertex fragment us as).vertexSource = vertex := by
  rw [Report.merged, Report.vertexStage_eq, stageInterface_eq]
  rfl

theorem fragmentSource_merged (report : Report) (parse : Hint.Parser) (vertex fragment : String)
    (us as : List (ActiveVariable × BaseType)) :
    (report.merged parse vertex fragment us as).fragmentSource = fragment := by
  rw [Report.merged, Report.fragmentStage, stageInterface_eq]
  rfl

/-! ## The whole interface -/

/-- An interface shows a report: it has the reported names and no others, each with the type and
the size of the last variable of that name. The texts give a uniform its stages; an attribute is in
the vertex stage. The names stand in the order in which they are reported, the uniforms of the
vertex stage before the others. -/
structure Report.Shown (report : Report) (vertex fragment : String) (p : ProgramInterface) :
    Prop where
  mem_uniforms_iff : ∀ name, name ∈ p.uniforms.entries ↔ ∃ v ∈ report.uniforms, v.name = name
  lastUniform : ∀ name v, lastNamed? report.uniforms name = some v →
    ∃ type, BaseType.ofTag? v.tag = some type ∧
      p.uniform? name = some (mirror v type (stagesOf vertex fragment name))
  uniformOrder : p.uniforms.order =
    (report.uniforms.map (·.name)).eraseDups.filter (takes vertex fragment) ++
      (report.uniforms.map (·.name)).eraseDups.filter fun name => !takes vertex fragment name
  mem_attributes_iff : ∀ name,
    name ∈ p.attributes.entries ↔ ∃ v ∈ report.attributes, v.name = name
  lastAttribute : ∀ name v, lastNamed? report.attributes name = some v →
    ∃ type, BaseType.ofTag? v.tag = some type ∧
      p.attribute? name =
        some { name := v.name, type, count := v.size, stages := .single .vertex }
  attributeOrder : p.attributes.order = (report.attributes.map (·.name)).eraseDups
  vertexSource : p.vertexSource = vertex
  fragmentSource : p.fragmentSource = fragment
  failures : p.failures = {}

theorem slots_eq_sum (active : List ActiveVariable) :
    slots active = (active.map (·.size)).sum := rfl

/-- An interface mirrors a report: it shows the report, and its slots are those of all variables. -/
structure Report.Mirrored (report : Report) (vertex fragment : String) (p : ProgramInterface) :
    Prop extends report.Shown vertex fragment p where
  uniformSlots : p.uniformSlots = (report.uniforms.map (·.size)).sum
  attributeSlots : p.attributeSlots = (report.attributes.map (·.size)).sum

/-- **A report of known types makes an interface that shows it**, if its slots can be counted. -/
theorem exists_shown (parse : Hint.Parser) (vertex fragment : String)
    (known : report.firstUnknown? = none) (fits : report.Fits overflow) :
    ∃ p, (ofReport parse overflow report vertex fragment).value = .ok p ∧
      report.Shown vertex fragment p ∧
      overflow.slots? report.uniforms = some p.uniformSlots ∧
      overflow.slots? report.attributes = some p.attributeSlots := by
  obtain ⟨us, as, hus, has⟩ := exists_typed_of_firstUnknown? known
  obtain ⟨p, counted⟩ := exists_counted (report.merged parse vertex fragment us as) fits
  refine ⟨p, value_ofReport_eq_ok_iff.mpr ⟨us, as, hus, has, counted⟩, ?_⟩
  obtain ⟨uniformSlots, attributeSlots, hu, ha, rfl⟩ := counted?_eq_some_iff.mp counted
  refine ⟨?_, hu, ha⟩
  exact {
    mem_uniforms_iff := fun name => by
      rw [Roster.mem_entries_iff, get?_uniforms_merged hus, Option.isSome_map,
        hus.isSome_lastTyped?_iff]
    lastUniform := fun name v last => by
      obtain ⟨type, tag, entry⟩ := hus.lastTyped?_eq last
      exact ⟨type, tag, by rw [ProgramInterface.uniform?, get?_uniforms_merged hus, entry]; rfl⟩
    uniformOrder := order_uniforms_merged hus
    mem_attributes_iff := fun name => by
      rw [Roster.mem_entries_iff, get?_attributes_merged, Option.isSome_map,
        has.isSome_lastTyped?_iff]
    lastAttribute := fun name v last => by
      obtain ⟨type, tag, entry⟩ := has.lastTyped?_eq last
      exact ⟨type, tag, by rw [ProgramInterface.attribute?, get?_attributes_merged, entry]; rfl⟩
    attributeOrder := order_attributes_merged has
    vertexSource := vertexSource_merged report parse vertex fragment us as
    fragmentSource := fragmentSource_merged report parse vertex fragment us as
    failures := rfl }

/-- **A report of known types makes the interface that mirrors it**, if its sums fit. -/
theorem exists_mirrored (parse : Hint.Parser) (overflow : Overflow) (vertex fragment : String)
    (known : report.firstUnknown? = none) (uniforms : slots report.uniforms < 2 ^ 32)
    (attributes : slots report.attributes < 2 ^ 32) :
    ∃ p, (ofReport parse overflow report vertex fragment).value = .ok p ∧
      report.Mirrored vertex fragment p := by
  have fits : report.Fits overflow := fun _ => ⟨uniforms, attributes⟩
  obtain ⟨p, made, shown, hu, ha⟩ := exists_shown parse vertex fragment known fits
  rw [overflow.slots?_of_lt uniforms] at hu
  rw [overflow.slots?_of_lt attributes] at ha
  exact ⟨p, made, { shown with
    uniformSlots := (Option.some.inj hu).symm.trans (slots_eq_sum _)
    attributeSlots := (Option.some.inj ha).symm.trans (slots_eq_sum _) }⟩

section Context

variable {σ Shader Program : Type} {context : Context σ Shader Program} {s : σ}

/-- **Reflection gives what is reported.** Where a context accepts two texts, the outcome is an
unknown type exactly when one is reported, and then the first, the uniforms before the attributes;
otherwise it is the interface that mirrors the report, if the sizes sum up to less than `2 ^ 32`
for the uniforms and for the attributes. -/
theorem reflect_of_accepts (accepts : context.Accepts vertex fragment s report)
    (uniforms : slots report.uniforms < 2 ^ 32) (attributes : slots report.attributes < 2 ^ 32) :
    let result := ((reflect parse overflow context vertex fragment).run s).value.1
    ((∃ name tag, result = .error (.failure (.unknownTag name tag))) ↔
      ∃ v ∈ report.uniforms ++ report.attributes, BaseType.ofTag? v.tag = none) ∧
    (∀ v, report.firstUnknown? = some v →
      result = .error (.failure (.unknownTag v.name v.tag))) ∧
    (report.firstUnknown? = none → ∃ p, result = .ok p ∧ report.Mirrored vertex fragment p) := by
  have value : ((reflect parse overflow context vertex fragment).run s).value.1 =
      (ofReport parse overflow report vertex fragment).value := accepts.value_reflect
  have made : report.firstUnknown? = none → ∃ p,
      (ofReport parse overflow report vertex fragment).value = .ok p ∧
        report.Mirrored vertex fragment p := fun known =>
    exists_mirrored parse overflow vertex fragment known uniforms attributes
  intro result
  refine ⟨?_, fun v first => ?_, fun known => ?_⟩
  · constructor
    · rintro ⟨name, tag, failed⟩
      by_contra none
      have known : report.firstUnknown? = .none :=
        Report.firstUnknown?_eq_none_iff.mpr fun v hv unknown => none ⟨v, hv, unknown⟩
      obtain ⟨p, made, -⟩ := made known
      cases failed.symm.trans (value.trans made)
    · rintro ⟨v, hv, unknown⟩
      cases first : report.firstUnknown? with
      | none => exact absurd unknown (Report.firstUnknown?_eq_none_iff.mp first v hv)
      | some w => exact ⟨w.name, w.tag, value.trans (value_ofReport_of_firstUnknown? first)⟩
  · exact value.trans (value_ofReport_of_firstUnknown? first)
  · obtain ⟨p, made, mirrored⟩ := made known
    exact ⟨p, value.trans made, mirrored⟩

/-- A vertex text that declares a struct variable and a plain one. -/
def litVertex : String := "uniform Light uLight;\nuniform float uA;"

/-- A fragment text that declares the struct variable too, and an array. -/
def litFragment : String := "uniform Light uLight; // uA\nuniform float uB[4];"

/-- A context that lists an array first, a variable that neither text declares, and `uA` twice. -/
def litScript : Scripted.Script where
  report :=
    { uniforms := [⟨"uB[0]", 0x1406, 4⟩, ⟨"uA", 0x1406, 1⟩, ⟨"uLight.color", 0x8B51, 1⟩,
        ⟨"uC.x", 0x1404, 1⟩, ⟨"uA", 0x8B50, 3⟩]
      attributes := [⟨"aB", 0x1406, 1⟩, ⟨"aA", 0x8B51, 1⟩, ⟨"aB", 0x8B52, 2⟩] }

theorem reflect_of_accepts_lit :
    slots litScript.report.uniforms < 2 ^ 32 ∧ slots litScript.report.attributes < 2 ^ 32 ∧
    ∃ p, ((reflect Hint.terse .stops (Scripted.context litScript) litVertex litFragment).run
        []).value.1 = .ok p ∧
      p.uniforms.order = ["uA", "uLight.color", "uC.x", "uB[0]"] ∧
      p.uniform? "uA" = some (mirror ⟨"uA", 0x8B50, 3⟩ (.vector .float .two) { vertex := true }) ∧
      p.uniformSlots = 10 := by
  have accepts := Scripted.accepts litScript.report litVertex litFragment []
  have uniforms : slots litScript.report.uniforms < 2 ^ 32 := by decide +kernel
  have attributes : slots litScript.report.attributes < 2 ^ 32 := by decide +kernel
  obtain ⟨p, made, mirrored⟩ :=
    (reflect_of_accepts accepts uniforms attributes).2.2 (by decide +kernel)
  obtain ⟨type, tag, entry⟩ := mirrored.lastUniform "uA" ⟨"uA", 0x8B50, 3⟩ (by decide +kernel)
  refine ⟨uniforms, attributes, p, made, ?_, ?_, ?_⟩
  · rw [mirrored.uniformOrder]
    decide +kernel
  · have vec2 : BaseType.ofTag? 0x8B50 = some (.vector .float .two) := by decide +kernel
    have stages : stagesOf litVertex litFragment "uA" = { vertex := true } := by decide +kernel
    obtain rfl : type = .vector .float .two := Option.some.inj (tag.symm.trans vec2)
    rw [entry, stages]
  · rw [mirrored.uniformSlots]
    rfl

end Context

end ShaderInterface.Reflection
