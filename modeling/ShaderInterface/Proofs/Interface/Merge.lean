import ShaderInterface.Proofs.Interface.Coherence

/-!
# What merging keeps

Two stages are merged by taking the entries of the second into the first, one after the other. Each
name is taken in once, so the outcome can be read off name by name: an entry of one stage stays as
it is, and two entries of one name are combined (`NameMap.getElem?_absorbAll`). The names of the
second stage that are new follow those of the first (`Roster.order_merge`). Together these say that
nothing is lost and nothing comes in from elsewhere (`StageInterface.joined_merge`).
-/

namespace ShaderInterface

open Glsl

/-! ## Maps -/

namespace NameMap

variable {α : Type} {combine : α → α → α} {a b m : NameMap α} {n : String}

/-- The map with the pairs taken in one after the other, each combined with the value that is
there. -/
def absorbAll (combine : α → α → α) (m : NameMap α) (pairs : List (String × α)) : NameMap α :=
  pairs.foldl
    (fun m pair => m.insert pair.1 (match m[pair.1]? with
      | some old => combine old pair.2
      | none => pair.2))
    m

theorem absorbAll_cons (m : NameMap α) (pair : String × α) (pairs : List (String × α)) :
    absorbAll combine m (pair :: pairs) =
      absorbAll combine (m.insert pair.1 (match m[pair.1]? with
        | some old => combine old pair.2
        | none => pair.2)) pairs := rfl

theorem getElem?_absorbAll_of_not_mem {pairs : List (String × α)} (h : n ∉ pairs.map Prod.fst) :
    (absorbAll combine m pairs)[n]? = m[n]? := by
  induction pairs generalizing m with
  | nil => rfl
  | cons pair pairs ih =>
    rw [List.map_cons, List.mem_cons, not_or] at h
    rw [absorbAll_cons, ih h.2, getElem?_insert', if_neg (Ne.symm h.1)]

theorem getElem?_absorbAll_of_mem {pairs : List (String × α)} {x : α}
    (once : (pairs.map Prod.fst).Nodup) (h : (n, x) ∈ pairs) :
    (absorbAll combine m pairs)[n]? = Option.merge combine m[n]? (some x) := by
  induction pairs generalizing m with
  | nil => cases h
  | cons pair pairs ih =>
    obtain ⟨fresh, once⟩ := List.nodup_cons.mp once
    rw [absorbAll_cons]
    rcases List.mem_cons.mp h with rfl | h
    · -- the name does not come again, so what the first pair leaves is final
      rw [getElem?_absorbAll_of_not_mem fresh, getElem?_insert', if_pos rfl]
      cases m[n]? <;> rfl
    · have ne : pair.1 ≠ n := fun eq => fresh (eq ▸ List.mem_map_of_mem h)
      rw [ih once h, getElem?_insert', if_neg ne]

/-- Taking in all pairs of a map, each once, combines the two maps name by name. -/
theorem getElem?_absorbAll {pairs : List (String × α)} (once : (pairs.map Prod.fst).Nodup)
    (listed : ∀ n x, (n, x) ∈ pairs ↔ b[n]? = some x) (n : String) :
    (absorbAll combine a pairs)[n]? = Option.merge combine a[n]? b[n]? := by
  cases hb : b[n]? with
  | some x => exact getElem?_absorbAll_of_mem once ((listed n x).mpr hb)
  | none =>
    have absent : n ∉ pairs.map Prod.fst := by
      intro hn
      obtain ⟨⟨k, x⟩, hp, rfl⟩ := List.mem_map.mp hn
      rw [(listed k x).mp hp] at hb
      cases hb
    rw [getElem?_absorbAll_of_not_mem absent]
    cases a[n]? <;> rfl

/-- The map `m` has the names of `a` and of `b` and no others. A name of one of them has its value
there, and a name of both has the two values joined. -/
structure Unites (join : α → α → α) (a b m : NameMap α) : Prop where
  mem_iff : ∀ n : String, n ∈ m ↔ n ∈ a ∨ n ∈ b
  first : ∀ n : String, n ∉ b → m[n]? = a[n]?
  second : ∀ n : String, n ∉ a → m[n]? = b[n]?
  both : ∀ (n : String) (x y : α), a[n]? = some x → b[n]? = some y → m[n]? = some (join x y)

theorem Unites.of_getElem? (h : ∀ n : String, m[n]? = Option.merge combine a[n]? b[n]?) :
    Unites combine a b m where
  mem_iff n := by
    simp only [Std.ExtTreeMap.mem_iff_isSome_getElem?, h n]
    cases a[n]? <;> cases b[n]? <;> simp [Option.merge]
  first n hn := by
    rw [h n, Std.ExtTreeMap.getElem?_eq_none hn]
    cases a[n]? <;> rfl
  second n hn := by
    rw [h n, Std.ExtTreeMap.getElem?_eq_none hn]
    cases b[n]? <;> rfl
  both n x y hx hy := by rw [h n, hx, hy, Option.merge]

end NameMap

/-! ## Rosters -/

namespace Roster

variable {α : Type} {combine : α → α → α} {s : Roster α}

/-- The names with their entries, in order. -/
def pairs (s : Roster α) : List (String × α) := s.order.filterMap fun n => (s.get? n).map (n, ·)

theorem merge_eq_foldl_pairs (r s : Roster α) :
    r.merge combine s = s.pairs.foldl (fun r pair => r.absorb combine pair.1 pair.2) r := by
  rw [pairs, List.foldl_filterMap, merge]
  refine List.foldl_ext _ _ _ fun merged n _ => ?_
  cases s.get? n <;> rfl

theorem entries_foldl_absorb (pairs : List (String × α)) (r : Roster α) :
    (pairs.foldl (fun r pair => r.absorb combine pair.1 pair.2) r).entries =
      NameMap.absorbAll combine r.entries pairs := by
  induction pairs generalizing r with
  | nil => rfl
  | cons pair pairs ih => exact ih (r.absorb combine pair.1 pair.2)

theorem mem_absorb {r : Roster α} {n other : String} {x : α} :
    other ∈ (r.absorb combine n x).entries ↔ n = other ∨ other ∈ r.entries := mem_insert

theorem order_foldl_absorb {pairs : List (String × α)} (once : (pairs.map Prod.fst).Nodup)
    (r : Roster α) :
    (pairs.foldl (fun r pair => r.absorb combine pair.1 pair.2) r).order =
      r.order ++ (pairs.map Prod.fst).filter fun n => n ∉ r.entries := by
  induction pairs generalizing r with
  | nil => simp
  | cons pair pairs ih =>
    obtain ⟨fresh, once⟩ := List.nodup_cons.mp once
    have rest : (pairs.map Prod.fst).filter
        (fun n => n ∉ (r.absorb combine pair.1 pair.2).entries) =
          (pairs.map Prod.fst).filter fun n => n ∉ r.entries := by
      refine List.filter_congr fun n hn => ?_
      have ne : pair.1 ≠ n := fun eq => fresh (eq ▸ hn)
      simp [mem_absorb, ne]
    rw [List.foldl_cons, ih once, rest, List.map_cons]
    by_cases known : pair.1 ∈ r.entries
    · rw [List.filter_cons_of_neg (by simpa using known), absorb, order_insert_of_mem known]
    · rw [List.filter_cons_of_pos (by simpa using known), absorb, order_insert_of_not_mem known,
        List.append_assoc, List.singleton_append]

theorem Coherent.map_fst_pairs (h : s.Coherent) : s.pairs.map Prod.fst = s.order := by
  rw [pairs, List.map_filterMap]
  refine (List.filterMap_congr fun n hn => ?_).trans List.filterMap_some
  obtain ⟨x, hx⟩ := Option.isSome_iff_exists.mp (mem_entries_iff.mp ((h.mem_order_iff n).mp hn))
  rw [hx]
  rfl

theorem Coherent.mem_pairs_iff (h : s.Coherent) (n : String) (x : α) :
    (n, x) ∈ s.pairs ↔ s.entries[n]? = some x := by
  rw [pairs, List.mem_filterMap]
  constructor
  · rintro ⟨k, -, hk⟩
    obtain ⟨y, hy, heq⟩ := Option.map_eq_some_iff.mp hk
    cases heq
    exact hy
  · intro hx
    have known : n ∈ s.entries := mem_entries_iff.mpr (Option.isSome_of_eq_some hx)
    exact ⟨n, (h.mem_order_iff n).mpr known, Option.map_eq_some_iff.mpr ⟨x, hx, rfl⟩⟩

/-- Merging combines the entries name by name. -/
theorem getElem?_entries_merge (h : s.Coherent) (r : Roster α) (n : String) :
    (r.merge combine s).entries[n]? = Option.merge combine r.entries[n]? s.entries[n]? := by
  rw [merge_eq_foldl_pairs, entries_foldl_absorb]
  exact NameMap.getElem?_absorbAll (h.map_fst_pairs ▸ h.nodup) h.mem_pairs_iff n

/-- The names that are new follow the names that are there, in their own order. -/
theorem order_merge (h : s.Coherent) (r : Roster α) :
    (r.merge combine s).order = r.order ++ s.order.filter fun n => n ∉ r.entries := by
  rw [merge_eq_foldl_pairs, order_foldl_absorb (h.map_fst_pairs ▸ h.nodup), h.map_fst_pairs]

end Roster

/-! ## Stages -/

/-- The hints of two stages are combined name by name. -/
theorem getElem?_mergeHints (a b : NameMap Hint.Fields) (n : String) :
    (mergeHints a b)[n]? = Option.merge Hint.Fields.merge a[n]? b[n]? := by
  have fold : mergeHints a b = NameMap.absorbAll Hint.Fields.merge a b.toList := by
    rw [mergeHints, Std.ExtTreeMap.foldl_eq_foldl_toList, NameMap.absorbAll]
    refine List.foldl_ext _ _ _ fun merged pair _ => ?_
    cases merged[pair.1]? <;> rfl
  rw [fold]
  refine NameMap.getElem?_absorbAll ?_ (fun n x => ?_) n
  · rw [Std.ExtTreeMap.map_fst_toList_eq_keys]
    exact Std.ExtTreeMap.nodup_keys
  · exact Std.ExtTreeMap.mem_toList_iff_getElem?_eq_some

/-- The program interface joins the stages: it has the variables and the hints of both and no
others, in the order of the first stage and then of the second. A variable of both stages is the
one of the second stage, declared in the stages of either. -/
structure StageInterface.Joined (v f : StageInterface) (p : ProgramInterface) : Prop where
  uniforms : NameMap.Unites (fun a b => { b with stages := a.stages ∪ b.stages })
    v.uniforms.entries f.uniforms.entries p.uniforms.entries
  uniformOrder : p.uniforms.order =
    v.uniforms.order ++ f.uniforms.order.filter fun n => n ∉ v.uniforms.entries
  attributes : NameMap.Unites (fun a b => { b with stages := a.stages ∪ b.stages })
    v.attributes.entries f.attributes.entries p.attributes.entries
  attributeOrder : p.attributes.order =
    v.attributes.order ++ f.attributes.order.filter fun n => n ∉ v.attributes.entries
  hints : NameMap.Unites Hint.Fields.merge v.hints f.hints p.hints
  uniformSlots : p.uniformSlots = p.uniforms.size
  attributeSlots : p.attributeSlots = p.attributes.size
  vertexSource : p.vertexSource = v.source
  fragmentSource : p.fragmentSource = f.source
  failures : p.failures = {}
  hasError : p.hasError = false

/-- Only the second stage has to be coherent, since its order says what is taken in. -/
theorem StageInterface.Coherent.joined {f : StageInterface} (hf : f.Coherent) (v : StageInterface) :
    StageInterface.Joined v f (v.merge f) where
  uniforms := .of_getElem? (Roster.getElem?_entries_merge hf.uniforms v.uniforms)
  uniformOrder := Roster.order_merge hf.uniforms v.uniforms
  attributes := .of_getElem? (Roster.getElem?_entries_merge hf.attributes v.attributes)
  attributeOrder := Roster.order_merge hf.attributes v.attributes
  hints := .of_getElem? (getElem?_mergeHints v.hints f.hints)
  uniformSlots := rfl
  attributeSlots := rfl
  vertexSource := rfl
  fragmentSource := rfl
  failures := rfl
  hasError := rfl

end ShaderInterface
