import Mathlib.Data.List.Induction
import ShaderInterface.Hint.Reader
import ShaderInterface.Proofs.Analysis.Reading
import ShaderInterface.Proofs.Interface.Naming
import ShaderInterface.Proofs.Interface.Roster

/-!
# The last declaration of a name wins

A stage is read declaration by declaration, and its interface holds what the last declaration of
each name says and nothing else (`stage_compositional`).

Taking in a declaration removes what stands for its name and adds its own entries. The invariant of
the loop is that the interface holds the last readings so far (`Holds`); a step keeps it
(`Holds.declareUniform`) because no entry stands for two declared names.
-/

namespace ShaderInterface.Analysis

open Glsl Text

/-! ## Last elements -/

section LastOfEach

variable {α β : Type} {key : α → String} {key' : β → String}

/-- The elements with no later element of the same key. -/
def lastOfEach (key : α → String) : List α → List α
  | [] => []
  | a :: as => if key a ∈ as.map key then lastOfEach key as else a :: lastOfEach key as

theorem mem_of_mem_lastOfEach {as : List α} {a : α} (h : a ∈ lastOfEach key as) : a ∈ as := by
  induction as with
  | nil => exact h
  | cons b as ih =>
    rw [lastOfEach] at h
    split at h
    · exact List.mem_cons_of_mem _ (ih h)
    · rcases List.mem_cons.mp h with rfl | h
      · exact List.mem_cons_self
      · exact List.mem_cons_of_mem _ (ih h)

/-- Every key has a last element. -/
theorem mem_map_lastOfEach {as : List α} {k : String} :
    k ∈ (lastOfEach key as).map key ↔ k ∈ as.map key := by
  induction as with
  | nil => rfl
  | cons a as ih =>
    rw [lastOfEach]
    split
    · next later =>
      rw [ih, List.map_cons, List.mem_cons]
      exact ⟨.inr, fun h => h.elim (fun eq => eq ▸ later) id⟩
    · rw [List.map_cons, List.map_cons, List.mem_cons, List.mem_cons, ih]

/-- A further element takes the place of the one with its key, behind all others. -/
theorem lastOfEach_append_singleton (as : List α) (a : α) :
    lastOfEach key (as ++ [a]) = (lastOfEach key as).filter (fun b => key b ≠ key a) ++ [a] := by
  induction as with
  | nil => simp [lastOfEach]
  | cons b as ih =>
    have mem : key b ∈ (as ++ [a]).map key ↔ key b ∈ as.map key ∨ key b = key a := by
      rw [List.map_append, List.mem_append, List.map_singleton, List.mem_singleton]
    rw [List.cons_append, lastOfEach, ih, lastOfEach]
    by_cases later : key b ∈ as.map key
    · rw [if_pos (mem.mpr (.inl later)), if_pos later]
    · rw [if_neg later]
      by_cases same : key b = key a
      · rw [if_pos (mem.mpr (.inr same)), List.filter_cons_of_neg (by simp [same])]
      · rw [if_neg fun m => (mem.mp m).elim later same, List.filter_cons_of_pos (by simp [same]),
          List.cons_append]

/-- Related lists have related last elements, where related elements have one key. -/
theorem forall₂_lastOfEach {R : α → β → Prop} (same : ∀ a b, R a b → key a = key' b)
    {as : List α} {bs : List β} (h : List.Forall₂ R as bs) :
    List.Forall₂ R (lastOfEach key as) (lastOfEach key' bs) := by
  induction h with
  | nil => exact .nil
  | @cons a b as bs hab h ih =>
    have keys : List.Forall₂ Eq (as.map key) (bs.map key') :=
      List.forall₂_map_left_iff.mpr (List.forall₂_map_right_iff.mpr (h.imp same))
    rw [List.forall₂_eq_eq_eq] at keys
    rw [lastOfEach, lastOfEach, keys, same a b hab]
    split
    · exact ih
    · exact .cons hab ih

end LastOfEach

/-! ## Readings that an interface holds -/

/-- A reading whose name is an identifier, and whose entries all stand for it. -/
structure UniformReading.Proper (r : UniformReading) : Prop where
  ident : isIdentifier r.name.toList
  standsFor : ∀ u ∈ r.entries, standsFor u.name r.name

/-- The uniforms and the hints of the interface are those of the readings: the order has the entry
names of one reading after the other, each name once; of the entries of a name the last counts; and
a hint belongs to the name of its reading. -/
structure Holds (i : StageInterface) (rs : List UniformReading) : Prop where
  order : i.uniforms.order = rs.flatMap fun r => (r.entries.map (·.name)).eraseDups
  uniforms : ∀ name, i.uniforms.get? name =
    ((rs.flatMap (·.entries)).filter fun u => u.name = name).getLast?
  hints : ∀ name, i.hints[name]? = (rs.find? fun r => r.name = name).bind (·.hint)

/-- The attributes of the interface are the given ones: a name keeps its first place, and of the
attributes of a name the last counts. -/
structure HoldsAttributes (i : StageInterface) (as : List Attribute) : Prop where
  order : i.attributes.order = (as.map (·.name)).eraseDups
  attributes : ∀ name, i.attributes.get? name = (as.filter fun a => a.name = name).getLast?

variable {i : StageInterface} {r : UniformReading} {rs : List UniformReading} {name : String}

theorem foldl_insertUniform (us : List Uniform) (i : StageInterface) :
    us.foldl StageInterface.insertUniform i =
      { i with uniforms := us.foldl (fun r u => r.insert u.name u) i.uniforms } := by
  induction us generalizing i with
  | nil => rfl
  | cons u us ih => exact ih (i.insertUniform u)

theorem foldl_insertAttribute (as : List Attribute) (i : StageInterface) :
    as.foldl StageInterface.insertAttribute i =
      { i with attributes := as.foldl (fun r a => r.insert a.name a) i.attributes } := by
  induction as generalizing i with
  | nil => rfl
  | cons a as ih => exact ih (i.insertAttribute a)

theorem uniforms_declareUniform (i : StageInterface) (r : UniformReading) :
    (declareUniform i r).uniforms = r.entries.foldl (fun us u => us.insert u.name u)
      (i.uniforms.filter fun name => !standsFor name r.name) := by
  rw [declareUniform, foldl_insertUniform]
  cases r.hint <;> rfl

theorem attributes_declareUniform (i : StageInterface) (r : UniformReading) :
    (declareUniform i r).attributes = i.attributes := by
  rw [declareUniform, foldl_insertUniform]
  cases r.hint <;> rfl

theorem getElem?_hints_declareUniform (i : StageInterface) (r : UniformReading) (name : String) :
    (declareUniform i r).hints[name]? = if r.name = name then r.hint else i.hints[name]? := by
  rw [declareUniform, foldl_insertUniform]
  cases r.hint with
  | none =>
    show (i.hints.erase r.name)[name]? = _
    simp [Std.ExtTreeMap.getElem?_erase]
  | some fields =>
    show ((i.hints.erase r.name).insert r.name fields)[name]? = _
    rw [NameMap.getElem?_insert']
    split
    · rfl
    · next ne => simp [Std.ExtTreeMap.getElem?_erase, ne]

/-- Taking out what stands for a name takes out what the readings of this name say, and nothing
else. -/
theorem flatMap_others {α : Type} {f : UniformReading → List α} {entry : α → String}
    (ident : isIdentifier name.toList) (proper : ∀ q ∈ rs, isIdentifier q.name.toList)
    (stands : ∀ q ∈ rs, ∀ a ∈ f q, standsFor (entry a) q.name) :
    (rs.flatMap f).filter (fun a => !standsFor (entry a) name) =
      (rs.filter fun q => q.name ≠ name).flatMap f := by
  induction rs with
  | nil => rfl
  | cons q rs ih =>
    obtain ⟨identq, proper⟩ := List.forall_mem_cons.mp proper
    obtain ⟨standsq, stands⟩ := List.forall_mem_cons.mp stands
    rw [List.flatMap_cons, List.filter_append, ih proper stands]
    by_cases same : q.name = name
    · have none : (f q).filter (fun a => !standsFor (entry a) name) = [] := by
        refine List.filter_eq_nil_iff.mpr fun a ha => ?_
        have := standsq a ha
        rw [same] at this
        simp [this]
      rw [none, List.nil_append, List.filter_cons_of_neg (by simp [same])]
    · have all : (f q).filter (fun a => !standsFor (entry a) name) = f q := by
        refine List.filter_eq_self.mpr fun a ha => ?_
        rw [Bool.not_eq_true']
        exact Bool.eq_false_iff.mpr fun h => same (eq_of_standsFor identq ident (standsq a ha) h)
      rw [all, List.filter_cons_of_pos (by simp [same]), List.flatMap_cons]

/-- The reading of a name among the readings of the other names. -/
theorem find?_others (rs : List UniformReading) (other name : String) :
    (rs.filter fun q => q.name ≠ other).find? (fun q => q.name = name) =
      if other = name then none else rs.find? fun q => q.name = name := by
  rw [List.find?_filter]
  split
  · next same =>
    refine List.find?_eq_none.mpr fun q _ hq => ?_
    simp [← same] at hq
  · next ne =>
    congr 1
    funext q
    by_cases eq : q.name = name
    · simp [eq, Ne.symm ne]
    · simp [eq]

/-- The last entry of a name among the entries that do not stand for another. -/
theorem getLast?_others (us : List Uniform) (other name : String) :
    ((us.filter fun u => !standsFor u.name other).filter fun u => u.name = name).getLast? =
      if standsFor name other then none else (us.filter fun u => u.name = name).getLast? := by
  rw [List.filter_filter]
  split
  · next stands =>
    have none : us.filter (fun u => decide (u.name = name) && !standsFor u.name other) = [] := by
      refine List.filter_eq_nil_iff.mpr fun u _ hu => ?_
      obtain ⟨rfl, apart⟩ : u.name = name ∧ standsFor u.name other = false := by
        simpa using hu
      rw [stands] at apart
      cases apart
    rw [none, List.getLast?_nil]
  · next stands =>
    refine congrArg _ (List.filter_congr fun u _ => ?_)
    by_cases eq : u.name = name
    · simp [eq, stands]
    · simp [eq]

/-- No entry of a variable is left once what stands for it is taken out. -/
theorem fresh_of_mem_entries (hr : r.Proper) {u : Uniform} (hu : u ∈ r.entries) :
    u.name ∉ (i.uniforms.filter fun name => !standsFor name r.name).entries := by
  rw [Roster.mem_entries_iff, Roster.get?_filter, hr.standsFor u hu]
  simp

/-- **Taking in a declaration keeps the invariant.** -/
theorem Holds.declareUniform (h : Holds i rs) (proper : ∀ q ∈ rs, q.Proper) (hr : r.Proper) :
    Holds (declareUniform i r) ((rs.filter fun q => q.name ≠ r.name) ++ [r]) where
  order := by
    have kept : (i.uniforms.filter fun name => !standsFor name r.name).order =
        (rs.filter fun q => q.name ≠ r.name).flatMap fun r =>
          (r.entries.map (·.name)).eraseDups := by
      rw [← flatMap_others hr.ident (fun q hq => (proper q hq).ident), ← h.order]
      · rfl
      · intro q hq name hn
        obtain ⟨u, hu, rfl⟩ := List.mem_map.mp (List.mem_eraseDups.mp hn)
        exact (proper q hq).standsFor u hu
    -- the variable has no entry left, so all its entries come in behind the others
    rw [uniforms_declareUniform,
      Roster.order_foldl_insert_of_fresh fun u hu => fresh_of_mem_entries hr hu, kept,
      List.flatMap_append, List.flatMap_singleton]
  uniforms := by
    intro name
    have kept : (i.uniforms.filter fun name => !standsFor name r.name).get? name =
        (((rs.filter fun q => q.name ≠ r.name).flatMap (·.entries)).filter
          fun u => u.name = name).getLast? := by
      rw [← flatMap_others hr.ident (fun q hq => (proper q hq).ident)
        fun q hq => (proper q hq).standsFor, getLast?_others, Roster.get?_filter, h.uniforms]
      cases standsFor name r.name <;> rfl
    rw [uniforms_declareUniform, Roster.get?_foldl_insert, kept, List.flatMap_append,
      List.flatMap_singleton, List.filter_append, List.getLast?_append]
  hints := by
    intro name
    rw [getElem?_hints_declareUniform, h.hints, List.find?_append, find?_others]
    by_cases same : r.name = name
    · rw [if_pos same, if_pos same, List.find?_cons_of_pos (by simpa using same)]
      rfl
    · rw [if_neg same, if_neg same, List.find?_cons_of_neg (by simpa using same), List.find?_nil,
        Option.or_none]

theorem holds_empty (which : Stage) (text : String) :
    Holds { stage := which, source := text } [] where
  order := rfl
  uniforms := fun name => Roster.get?_empty name
  hints := fun name => by simp

/-- After any declarations the interface holds the last reading of each name. -/
theorem holds_foldl_declareUniform (h : Holds i []) (proper : ∀ q ∈ rs, q.Proper) :
    Holds (rs.foldl Analysis.declareUniform i) (lastOfEach (·.name) rs) := by
  induction rs using List.reverseRecOn with
  | nil => exact h
  | append_singleton rs r ih =>
    obtain ⟨before, last⟩ := List.forall_mem_append.mp proper
    rw [List.foldl_append, lastOfEach_append_singleton]
    have kept : ∀ q ∈ lastOfEach (·.name) rs, q.Proper := fun q hq =>
      before q (mem_of_mem_lastOfEach hq)
    exact (ih before).declareUniform kept (last r List.mem_cons_self)

theorem attributes_foldl_declareUniform (rs : List UniformReading) (i : StageInterface) :
    (rs.foldl declareUniform i).attributes = i.attributes := by
  induction rs generalizing i with
  | nil => rfl
  | cons r rs ih => exact (ih _).trans (attributes_declareUniform i r)

/-- Attributes leave the uniforms alone. -/
theorem Holds.foldl_insertAttribute (h : Holds i rs) (as : List Attribute) :
    Holds (as.foldl StageInterface.insertAttribute i) rs := by
  rw [Analysis.foldl_insertAttribute]
  exact ⟨h.order, h.uniforms, h.hints⟩

theorem holdsAttributes_foldl_insertAttribute (none : i.attributes = {}) (as : List Attribute) :
    HoldsAttributes (as.foldl StageInterface.insertAttribute i) as := by
  rw [foldl_insertAttribute, none]
  exact ⟨Roster.order_foldl_insert_empty as, Roster.get?_foldl_insert_empty as⟩

/-! ## The interface of a stage -/

/-- The text in which the declarations of a stage are looked for: without its comments, and with
its macros put in where the settings say so. -/
def Config.scanned (config : Config) (macros : Macro.Table) (text : String) : List Char :=
  if config.substituteMacros then macros.substitute (Comment.blank text.toList)
  else Comment.blank text.toList

/-- The declarations of a stage with the given keyword. -/
def Config.declarations (config : Config) (macros : Macro.Table) (text : String)
    (keyword : Keyword) : List Declaration :=
  Declaration.scan (config.scanned macros text) text.toList keyword

/-- What the declarations of a stage are read with. -/
def Config.scope (config : Config) (parse : Hint.Parser) (macros : Macro.Table) (which : Stage)
    (text : String) : Scope where
  parse := parse
  stage := which
  macros := macros
  structs := Struct.Table.ofText macros (config.scanned macros text)
  expandStructs := config.expandStructs

variable {parse : Hint.Parser} {config : Config} {which : Stage} {text : String}
  {macros : Macro.Table}

theorem outcome_prepare
    (resolved : (Macro.Table.ofText (Comment.blank text.toList) config.macroPasses).outcome =
      .ok macros) :
    (prepare parse config which text.toList).outcome =
      .ok (config.scanned macros text, config.scope parse macros which text) :=
  value_run_bind_eq_ok_iff.mpr ⟨macros, resolved, rfl⟩

/-- A stage has an interface when every declaration can be read, and then the readings make it. -/
theorem outcome_stage_eq_ok_iff
    (resolved : (Macro.Table.ofText (Comment.blank text.toList) config.macroPasses).outcome =
      .ok macros) :
    (stage parse config which text).outcome = .ok i ↔
      ∃ rs as, List.Forall₂
          (fun d r => (uniformReading (config.scope parse macros which text) d).outcome = .ok r)
          (config.declarations macros text .uniform) rs ∧
        List.Forall₂
          (fun d a => (attributeReading (config.scope parse macros which text) d).outcome = .ok a)
          (config.declarations macros text .attribute) as ∧
        assemble which text rs as = i := by
  constructor
  · intro h
    obtain ⟨prepared, hp, h⟩ := value_run_bind_eq_ok_iff.mp h
    cases (outcome_prepare resolved).symm.trans hp
    obtain ⟨ds, hds, h⟩ := value_run_bind_eq_ok_iff.mp h
    cases hds
    obtain ⟨rs, hrs, h⟩ := value_run_bind_eq_ok_iff.mp h
    obtain ⟨ds', hds', h⟩ := value_run_bind_eq_ok_iff.mp h
    cases hds'
    obtain ⟨as, has, h⟩ := value_run_bind_eq_ok_iff.mp h
    cases h
    exact ⟨rs, as, value_run_mapM_eq_ok_iff.mp hrs, value_run_mapM_eq_ok_iff.mp has, rfl⟩
  · rintro ⟨rs, as, hrs, has, rfl⟩
    refine value_run_bind_eq_ok_iff.mpr ⟨_, outcome_prepare resolved, ?_⟩
    refine value_run_bind_eq_ok_iff.mpr ⟨_, rfl, ?_⟩
    refine value_run_bind_eq_ok_iff.mpr ⟨rs, value_run_mapM_eq_ok_iff.mpr hrs, ?_⟩
    refine value_run_bind_eq_ok_iff.mpr ⟨_, rfl, ?_⟩
    exact value_run_bind_eq_ok_iff.mpr ⟨as, value_run_mapM_eq_ok_iff.mpr has, rfl⟩

/-- The reading of a declaration that was found is proper. -/
theorem Reads.proper {scope : Scope} {d : Declaration} {s written : List Char} {keyword : Keyword}
    (h : Reads scope d r) (found : d ∈ Declaration.scan s written keyword) : r.Proper := by
  obtain ⟨length, -, he⟩ := h.entries
  rw [← h.name] at he
  exact ⟨h.name ▸ Declaration.isIdentifier_of_mem_scan found, Struct.standsFor_of_mem_expand he⟩

/-- **A stage is read declaration by declaration, and the last declaration of a name wins.** Where
the macros of a stage are resolved and structs are expanded, the stage has an interface exactly
when every uniform declaration and every attribute declaration says something on its own. The
interface then holds what the last declaration of each uniform name says, in the order of these
declarations, and nothing of an earlier one. -/
theorem stage_compositional (expands : config.expandStructs = true)
    (resolved : (Macro.Table.ofText (Comment.blank text.toList) config.macroPasses).outcome =
      .ok macros) :
    ((∃ i, (stage parse config which text).outcome = .ok i) ↔
      (∀ d ∈ config.declarations macros text .uniform,
        ∃ r, Reads (config.scope parse macros which text) d r) ∧
      ∀ d ∈ config.declarations macros text .attribute,
        ∃ a, ReadsAttribute (config.scope parse macros which text) d a) ∧
    ∀ i, (stage parse config which text).outcome = .ok i →
      ∃ rs as, List.Forall₂ (Reads (config.scope parse macros which text))
          (lastOfEach (·.name) (config.declarations macros text .uniform)) rs ∧
        List.Forall₂ (ReadsAttribute (config.scope parse macros which text))
          (config.declarations macros text .attribute) as ∧
        Holds i rs ∧ HoldsAttributes i as := by
  have iff : ∀ i, (stage parse config which text).outcome = .ok i ↔
      ∃ rs as, List.Forall₂ (Reads (config.scope parse macros which text))
          (config.declarations macros text .uniform) rs ∧
        List.Forall₂ (ReadsAttribute (config.scope parse macros which text))
          (config.declarations macros text .attribute) as ∧ assemble which text rs as = i := by
    intro i
    have expands : (config.scope parse macros which text).expandStructs = true := expands
    rw [outcome_stage_eq_ok_iff resolved]
    simp only [outcome_uniformReading_eq_ok_iff expands, outcome_attributeReading_eq_ok_iff]
  refine ⟨?_, fun i hi => ?_⟩
  · rw [← exists_forall₂_iff, ← exists_forall₂_iff]
    constructor
    · rintro ⟨i, hi⟩
      obtain ⟨rs, as, hrs, has, -⟩ := (iff i).mp hi
      exact ⟨⟨rs, hrs⟩, as, has⟩
    · rintro ⟨⟨rs, hrs⟩, as, has⟩
      exact ⟨_, (iff _).mpr ⟨rs, as, hrs, has, rfl⟩⟩
  · obtain ⟨rs, as, hrs, has, rfl⟩ := (iff i).mp hi
    have proper : ∀ r ∈ rs, r.Proper := by
      intro r hr
      obtain ⟨d, hd, hread⟩ := mem_right_of_forall₂ hrs hr
      exact hread.proper hd
    have held := holds_foldl_declareUniform (holds_empty which text) proper
    refine ⟨lastOfEach (·.name) rs, as, forall₂_lastOfEach (fun d r h => h.name.symm) hrs, has,
      held.foldl_insertAttribute as, holdsAttributes_foldl_insertAttribute ?_ as⟩
    exact attributes_foldl_declareUniform rs _

/-- An array that is declared anew as a single variable, behind a variable whose name goes on. -/
def redeclared : String := "#define N 2\nuniform int a[N];\nuniform int ab;\nuniform int a;"

theorem stage_compositional_redeclared :
    ∃ macros i, (stage Hint.terse {} .vertex redeclared).outcome = .ok i ∧
      i.uniforms.order = ["ab", "a"] ∧
      (∀ d ∈ Config.declarations {} macros redeclared .uniform,
        ∃ r, Reads (Config.scope {} Hint.terse macros .vertex redeclared) d r) ∧
      ∃ rs as, List.Forall₂ (Reads (Config.scope {} Hint.terse macros .vertex redeclared))
          (lastOfEach (·.name) (Config.declarations {} macros redeclared .uniform)) rs ∧
        List.Forall₂ (ReadsAttribute (Config.scope {} Hint.terse macros .vertex redeclared))
          (Config.declarations {} macros redeclared .attribute) as ∧
        Holds i rs ∧ HoldsAttributes i as := by
  have resolved : (Macro.Table.ofText (Comment.blank redeclared.toList) 64).outcome =
      .ok (({} : Macro.Table).add "N" (.int 2)) := by with_unfolding_all rfl
  have order : (stage Hint.terse {} .vertex redeclared).outcome.toOption.map (·.uniforms.order) =
      some ["ab", "a"] := by decide +kernel
  obtain ⟨i, hi, ho⟩ := Option.map_eq_some_iff.mp order
  have hi := toOption_eq_some_iff.mp hi
  obtain ⟨readable, holds⟩ := @stage_compositional Hint.terse {} .vertex redeclared _ rfl resolved
  exact ⟨_, i, hi, ho, (readable.mp ⟨i, hi⟩).1, holds i hi⟩

end ShaderInterface.Analysis
