import Mathlib.Data.List.Basic
import ShaderInterface.Interface.Roster

/-!
# Rosters that are filled entry by entry

What a roster answers after a list of entries went in: the last entry of a name counts
(`get?_foldl_insert`), and a name keeps the place at which it came in first
(`order_foldl_insert`). `filter` takes names out of the map and of the order alike.
-/

namespace ShaderInterface.Roster

variable {α : Type} {name : α → String}

theorem get?_empty (n : String) : ({} : Roster α).get? n = none := by
  simp [get?]

theorem mem_entries_iff {r : Roster α} {n : String} : n ∈ r.entries ↔ (r.get? n).isSome := by
  rw [get?]
  exact Std.ExtTreeMap.mem_iff_isSome_getElem?

/-- A name that is taken out has no entry, and the others keep theirs. -/
theorem get?_filter (r : Roster α) (keep : String → Bool) (n : String) :
    (r.filter keep).get? n = if keep n then r.get? n else none := by
  unfold get? filter
  rw [Std.ExtTreeMap.getElem?_filter']
  cases r.entries[n]? with
  | none => rw [Option.filter_none, ite_self]
  | some a => rw [Option.filter_some]

/-- Of the entries that went in under a name the last counts. -/
theorem get?_foldl_insert (as : List α) (r : Roster α) (n : String) :
    (as.foldl (fun r a => r.insert (name a) a) r).get? n =
      ((as.filter fun a => name a = n).getLast?).or (r.get? n) := by
  induction as generalizing r with
  | nil => rfl
  | cons a as ih =>
    rw [List.foldl_cons, ih, get?_insert]
    by_cases h : name a = n
    · rw [if_pos h, List.filter_cons_of_pos (by simpa using h), List.getLast?_cons]
      cases (as.filter fun a => name a = n).getLast? <;> rfl
    · rw [if_neg h, List.filter_cons_of_neg (by simpa using h)]

/-- A name that is new goes behind the names that are there, at the place where it came in first. -/
theorem order_foldl_insert (as : List α) (r : Roster α) :
    (as.foldl (fun r a => r.insert (name a) a) r).order =
      r.order ++ ((as.map name).filter fun n => n ∉ r.entries).eraseDups := by
  induction as generalizing r with
  | nil => simp
  | cons a as ih =>
    rw [List.foldl_cons, ih, List.map_cons]
    by_cases h : name a ∈ r.entries
    · have same : ∀ n, n ∈ (r.insert (name a) a).entries ↔ n ∈ r.entries := by
        intro n
        rw [mem_insert]
        exact ⟨fun m => m.elim (fun eq => eq ▸ h) id, .inr⟩
      rw [order_insert_of_mem h, List.filter_cons_of_neg (by simpa using h)]
      simp only [same]
    · rw [order_insert_of_not_mem h, List.filter_cons_of_pos (by simpa using h),
        List.eraseDups_cons, List.filter_filter, List.append_assoc, List.singleton_append]
      have rest : ∀ n, decide (n ∉ (r.insert (name a) a).entries) =
          ((!n == name a) && decide (n ∉ r.entries)) := by
        intro n
        by_cases eq : name a = n
        · simp [mem_insert, eq]
        · simp [mem_insert, eq, Ne.symm eq]
      simp only [rest]

/-- Names that are all new follow the names that are there. -/
theorem order_foldl_insert_of_fresh {as : List α} {r : Roster α}
    (fresh : ∀ a ∈ as, name a ∉ r.entries) :
    (as.foldl (fun r a => r.insert (name a) a) r).order =
      r.order ++ (as.map name).eraseDups := by
  have all : (as.map name).filter (fun n => n ∉ r.entries) = as.map name := by
    refine List.filter_eq_self.mpr fun n hn => ?_
    obtain ⟨a, ha, rfl⟩ := List.mem_map.mp hn
    exact decide_eq_true (fresh a ha)
  rw [order_foldl_insert, all]

/-- A roster that is filled from nothing has the last entry of each name. -/
theorem get?_foldl_insert_empty (as : List α) (n : String) :
    (as.foldl (fun r a => r.insert (name a) a) ({} : Roster α)).get? n =
      (as.filter fun a => name a = n).getLast? := by
  rw [get?_foldl_insert, get?_empty, Option.or_none]

/-- A roster that is filled from nothing has each name at the place where it came in first. -/
theorem order_foldl_insert_empty (as : List α) :
    (as.foldl (fun r a => r.insert (name a) a) ({} : Roster α)).order =
      (as.map name).eraseDups := by
  rw [order_foldl_insert_of_fresh fun _ _ => Std.ExtTreeMap.not_mem_empty]
  exact List.nil_append _

end ShaderInterface.Roster
