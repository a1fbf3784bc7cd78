import Std.Data.ExtTreeMap

/-!
# Maps from names

A map whose entries are listed in the order of their names, character by character. Two maps that
give the same answer for every name are equal.
-/

namespace ShaderInterface

/-- A map from names. -/
abbrev NameMap (α : Type) := Std.ExtTreeMap String α compare

namespace NameMap

variable {α : Type}

/-- The map that holds the pairs; of two pairs with one name the later counts. -/
def ofPairs (pairs : List (String × α)) : NameMap α :=
  pairs.foldl (fun m pair => m.insert pair.1 pair.2) ∅

theorem getElem?_insert' (m : NameMap α) (k a : String) (v : α) :
    (m.insert k v)[a]? = if k = a then some v else m[a]? := by
  simp [Std.ExtTreeMap.getElem?_insert]

end NameMap

end ShaderInterface
