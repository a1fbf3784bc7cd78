import Mathlib.Data.List.Nodup
import Mathlib.Data.List.Perm.Basic
import ShaderInterface.Interface.Program
import ShaderInterface.Proofs.Interface.Roster

/-!
# Coherence over whole runs

A roster keeps its names twice, as the keys of its map and in its order, and every entry carries
its name once more. Each edit of a stage interface keeps the three in step
(`StageInterface.Coherent.apply`), so any run of edits does (`StageInterface.Coherent.edit`), and so
does merging two stages (`StageInterface.Coherent.merge`). The entries of a coherent roster in their
order are the entries of its map, each of them once (`Roster.Coherent.inOrder_perm`).
-/

namespace ShaderInterface

open Glsl

/-! ## Rosters -/

namespace Roster

variable {α : Type} {r s : Roster α} {name : α → String} {combine : α → α → α}

/-- Every entry stands under its own name. -/
def Named (name : α → String) (r : Roster α) : Prop := ∀ n a, r.get? n = some a → name a = n

theorem Coherent.filter (h : r.Coherent) (keep : String → Bool) : (r.filter keep).Coherent where
  nodup := h.nodup.filter keep
  mem_order_iff n := by
    change n ∈ r.order.filter keep ↔ _
    rw [List.mem_filter, h.mem_order_iff, mem_entries_iff, mem_entries_iff, get?_filter]
    cases keep n <;> simp

theorem Named.empty : ({} : Roster α).Named name := fun n a h => by
  rw [get?_empty] at h
  cases h

theorem Named.insert (h : r.Named name) {n : String} {a : α} (hn : name a = n) :
    (r.insert n a).Named name := by
  intro m b hb
  rw [get?_insert] at hb
  split at hb
  · next eq =>
    cases hb
    exact hn.trans eq
  · exact h m b hb

theorem Named.filter (h : r.Named name) (keep : String → Bool) : (r.filter keep).Named name := by
  intro n a ha
  rw [get?_filter] at ha
  split at ha
  · exact h n a ha
  · cases ha

/-- Merging inserts entry by entry, so the order goes on listing the names. -/
theorem Coherent.merge (h : r.Coherent) : (r.merge combine s).Coherent := by
  refine List.foldlRecOn s.order _ h fun merged hm n _ => ?_
  split
  · exact hm.insert n _
  · exact hm

/-- A merged entry stands under its name where combining keeps the name of the second. -/
theorem Named.merge (hr : r.Named name) (hs : s.Named name)
    (keeps : ∀ b a, name (combine b a) = name a) : (r.merge combine s).Named name := by
  refine List.foldlRecOn s.order _ hr fun merged hm n _ => ?_
  split
  · next a ha =>
    refine hm.insert ?_
    split
    · exact (keeps _ a).trans (hs n a ha)
    · exact hs n a ha
  · exact hm

/-- **The order goes through the map without omission or repetition.** -/
theorem Coherent.inOrder_perm (h : r.Coherent) :
    r.inOrder.Perm (r.entries.toList.map Prod.snd) := by
  have names : r.order.Perm (r.entries.toList.map Prod.fst) := by
    rw [Std.ExtTreeMap.map_fst_toList_eq_keys]
    refine (List.perm_ext_iff_of_nodup h.nodup Std.ExtTreeMap.nodup_keys).mpr fun n => ?_
    rw [h.mem_order_iff, Std.ExtTreeMap.mem_keys]
  have found : ∀ pair ∈ r.entries.toList, r.get? pair.1 = some pair.2 := fun pair hp =>
    Std.ExtTreeMap.mem_toList_iff_getElem?_eq_some.mp hp
  have entries : (r.entries.toList.map Prod.fst).filterMap r.get? =
      r.entries.toList.map Prod.snd := by
    rw [List.filterMap_map, ← List.filterMap_eq_map]
    exact List.filterMap_congr found
  rw [inOrder, ← entries]
  exact names.filterMap r.get?

end Roster

/-! ## Stages -/

/-- A change of a stage interface. -/
inductive Edit where
  | insertUniform (u : Uniform)
  | insertAttribute (a : Attribute)
  | withHint (name : String) (fields : Hint.Fields)
  /-- Take out what an earlier declaration of the name has left. -/
  | removeUniform (declared : String)

namespace StageInterface

/-- The interface after a change. -/
def apply (i : StageInterface) : Edit → StageInterface
  | .insertUniform u => i.insertUniform u
  | .insertAttribute a => i.insertAttribute a
  | .withHint name fields => i.withHint name fields
  | .removeUniform declared => i.removeUniform declared

/-- The interface after a run of changes. -/
def edit (i : StageInterface) (edits : List Edit) : StageInterface := edits.foldl apply i

variable {i : StageInterface}

/-- An interface without entries is coherent, whatever hints it has. -/
theorem Coherent.ofHints (stage : Stage) (source : String) (hints : NameMap Hint.Fields) :
    Coherent { stage, source, hints } :=
  ⟨.empty, .empty, Roster.Named.empty, Roster.Named.empty⟩

/-- **An edit keeps an interface coherent.** -/
theorem Coherent.apply (h : i.Coherent) (e : Edit) : (i.apply e).Coherent := by
  cases e with
  | insertUniform u =>
    exact ⟨h.uniforms.insert u.name u, h.attributes, Roster.Named.insert h.uniform_name rfl,
      h.attribute_name⟩
  | insertAttribute a =>
    exact ⟨h.uniforms, h.attributes.insert a.name a, h.uniform_name,
      Roster.Named.insert h.attribute_name rfl⟩
  | withHint name fields => exact ⟨h.uniforms, h.attributes, h.uniform_name, h.attribute_name⟩
  | removeUniform declared =>
    exact ⟨h.uniforms.filter _, h.attributes, Roster.Named.filter h.uniform_name _,
      h.attribute_name⟩

/-- Any run of edits keeps an interface coherent. -/
theorem Coherent.edit (h : i.Coherent) (edits : List Edit) : (i.edit edits).Coherent := by
  induction edits generalizing i with
  | nil => exact h
  | cons e edits ih => exact ih (h.apply e)

end StageInterface

/-! ## Programs -/

/-- Both rosters are coherent, and every entry stands under its own name. -/
structure ProgramInterface.Coherent (p : ProgramInterface) : Prop where
  uniforms : p.uniforms.Coherent
  attributes : p.attributes.Coherent
  uniform_name : ∀ name u, p.uniforms.get? name = some u → u.name = name
  attribute_name : ∀ name a, p.attributes.get? name = some a → a.name = name

/-- The entries in order are the entries of the maps, each of them once. -/
structure ProgramInterface.ListsOnce (p : ProgramInterface) : Prop where
  uniforms : p.uniforms.inOrder.Perm (p.uniforms.entries.toList.map Prod.snd)
  attributes : p.attributes.inOrder.Perm (p.attributes.entries.toList.map Prod.snd)

theorem ProgramInterface.Coherent.listsOnce {p : ProgramInterface} (h : p.Coherent) : p.ListsOnce :=
  ⟨h.uniforms.inOrder_perm, h.attributes.inOrder_perm⟩

/-- The interface of a program that failed has no entries. -/
theorem ProgramInterface.Coherent.failed (vertex fragment : String) (failures : Failures) :
    (ProgramInterface.failed vertex fragment failures).Coherent :=
  ⟨.empty, .empty, Roster.Named.empty, Roster.Named.empty⟩

/-- **Merging two stages keeps coherence.** -/
theorem StageInterface.Coherent.merge {v f : StageInterface} (hv : v.Coherent) (hf : f.Coherent) :
    (v.merge f).Coherent where
  uniforms := hv.uniforms.merge
  attributes := hv.attributes.merge
  uniform_name := Roster.Named.merge hv.uniform_name hf.uniform_name fun _ _ => rfl
  attribute_name := Roster.Named.merge hv.attribute_name hf.attribute_name fun _ _ => rfl

end ShaderInterface
