import ShaderInterface.Hint.Value

/-!
# Merging hints

Fields of the overlay are added to those of the base. Where both have an object under one key the
objects are merged in the same way; otherwise the overlay wins.
-/

namespace ShaderInterface.Hint

mutual

/-- What stands for a key with the given value in the base once the overlay has given it a
value. -/
def mergeValue (base : Option Value) : Value → Value
  | .object overlay =>
    match base with
    | some (.object fields) => .object (mergeFields fields overlay)
    | _ => .object overlay
  | v => v

/-- The fields of the base with those of the overlay merged in, one after the other. -/
def mergeFields (base : List (String × Value)) : List (String × Value) → List (String × Value)
  | [] => base
  | (key, v) :: rest =>
    mergeFields (Fields.insert key (mergeValue (Fields.get? key base) v) base) rest

end

/-- The fields of the base with those of the overlay merged in. -/
def Fields.merge (base overlay : Fields) : Fields := mergeFields base overlay

@[simp]
theorem Fields.merge_nil (base : Fields) : Fields.merge base [] = base := by
  simp [Fields.merge, mergeFields]

end ShaderInterface.Hint
