import ShaderInterface.NameMap

/-!
# Rosters

A roster holds entries by name together with the order in which the names came in. Inserting under
a name that is there already replaces the entry and keeps its place. The order is a list that may
also be edited by itself; in a `Coherent` roster it lists every name of the map exactly once, and
then `inOrder` gives every entry exactly once.
-/

namespace ShaderInterface

/-- Entries by name, with the order of the names. -/
structure Roster (α : Type) where
  entries : NameMap α := ∅
  order : List String := []

namespace Roster

variable {α : Type}

/-- The entry of a name. -/
def get? (r : Roster α) (name : String) : Option α := r.entries[name]?

/-- The number of entries. -/
def size (r : Roster α) : Nat := r.entries.size

/-- No name has an entry. -/
def isEmpty (r : Roster α) : Bool := r.entries.isEmpty

/-- The roster with an entry under a name. -/
def insert (r : Roster α) (name : String) (a : α) : Roster α where
  entries := r.entries.insert name a
  order := if r.entries.contains name then r.order else r.order ++ [name]

/-- The roster of the names that are kept. -/
def filter (r : Roster α) (keep : String → Bool) : Roster α where
  entries := r.entries.filter fun name _ => keep name
  order := r.order.filter keep

/-- The roster with a further name in its order, and no entry for it. -/
def mention (r : Roster α) (name : String) : Roster α := { r with order := r.order ++ [name] }

/-- The entries in the order of their names. -/
def inOrder (r : Roster α) : List α := r.order.filterMap r.get?

/-- The roster with an entry under a name, combined with the entry that is there. -/
def absorb (combine : α → α → α) (r : Roster α) (name : String) (a : α) : Roster α :=
  r.insert name (match r.get? name with
    | some b => combine b a
    | none => a)

/-- The first roster with the entries of the second, taken in their order. -/
def merge (combine : α → α → α) (r s : Roster α) : Roster α :=
  s.order.foldl
    (fun merged name => match s.get? name with
      | some a => merged.absorb combine name a
      | none => merged)
    r

/-- The order lists every name of the map exactly once. -/
structure Coherent (r : Roster α) : Prop where
  nodup : r.order.Nodup
  mem_order_iff : ∀ name, name ∈ r.order ↔ name ∈ r.entries

theorem get?_insert (r : Roster α) (name other : String) (a : α) :
    (r.insert name a).get? other = if name = other then some a else r.get? other := by
  simp [get?, insert, Std.ExtTreeMap.getElem?_insert]

theorem Coherent.empty : Coherent ({} : Roster α) := ⟨by simp, by simp⟩

theorem mem_insert {r : Roster α} {name other : String} {a : α} :
    other ∈ (r.insert name a).entries ↔ name = other ∨ other ∈ r.entries := by
  simp [insert, Std.ExtTreeMap.mem_insert]

theorem order_insert_of_mem {r : Roster α} {name : String} (h : name ∈ r.entries) (a : α) :
    (r.insert name a).order = r.order := by
  simp [insert, h]

theorem order_insert_of_not_mem {r : Roster α} {name : String} (h : name ∉ r.entries) (a : α) :
    (r.insert name a).order = r.order ++ [name] := by
  simp [insert, h]

theorem Coherent.insert {r : Roster α} (h : r.Coherent) (name : String) (a : α) :
    (r.insert name a).Coherent := by
  by_cases member : name ∈ r.entries
  · refine ⟨by simpa [order_insert_of_mem member] using h.nodup, fun other => ?_⟩
    rw [order_insert_of_mem member, mem_insert, h.mem_order_iff]
    exact ⟨Or.inr, fun m => m.elim (fun e => e ▸ member) id⟩
  · have fresh : name ∉ r.order := fun m => member ((h.mem_order_iff name).mp m)
    refine ⟨?_, fun other => ?_⟩
    · rw [order_insert_of_not_mem member, List.nodup_append]
      refine ⟨h.nodup, by simp, fun x hx y hy => ?_⟩
      rintro rfl
      exact fresh (List.mem_singleton.mp hy ▸ hx)
    · rw [order_insert_of_not_mem member, mem_insert, List.mem_append, List.mem_singleton,
        h.mem_order_iff]
      exact ⟨fun m => m.elim Or.inr fun e => Or.inl e.symm,
        fun m => m.elim (fun e => Or.inr e.symm) Or.inl⟩

end Roster

end ShaderInterface
